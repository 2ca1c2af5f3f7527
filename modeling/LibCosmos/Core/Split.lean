import LibCosmos.Core.Types
import LibCosmos.Foundation.Pieces
import Mathlib.Data.List.Infix

/-
  Splitting strings at a separator (`split` and `strip` in
  `src/string.cxx`).

  `isspace` depends on the locale and is arbitrary here.

  Main declarations:
    * `Split.strip`, `Split.split`
    * `Split.splitLoop_keep`, `Split.splitLoop_visible`,
      `Split.splitLoop_limit`
    * `Split.Lawful`, `Split.split_lawful`
-/

namespace Cosmos

namespace Split

open Pieces

------------------------------------------------------------
-- The Code
------------------------------------------------------------

/- The largest `size_t`. -/
def npos : Nat := 2 ^ 64 - 1

/- A `std::string_view`, which is shorter than `npos`. -/
structure View where
  chars : Str
  size_lt : chars.length < npos

/- A separator that is not empty. -/
structure Separator where
  chars : Str
  nonempty : chars ≠ []

structure SplitFlags where
  stripParts : Bool
  keepEmpty : Bool
deriving DecidableEq, Repr

section Code

variable (isspace : Byte → Bool)

/- The characters that `strip` takes off. -/
def stripit (strip_set : Str) (ch : Byte) : Bool :=
  if strip_set = [] then isspace ch
  else decide (ch ∈ strip_set)

/- `strip`: first from the front, then from the back. -/
def strip (s strip_set : Str) : Str :=
  ((s.dropWhile (stripit isspace strip_set)).reverse.dropWhile
    (stripit isspace strip_set)).reverse

variable (str : View) (sep : Separator)

/- `str.substr(pos, n)`, which throws past the end. -/
def substr (pos n : Nat) : Except Exn Str :=
  if pos ≤ str.chars.length then
    .ok ((str.chars.drop pos).take n)
  else
    .error
      (.stdException (Cosmos.str "basic_string_view::substr"))

/- `str.find(sep, pos)`. -/
def find (pos : Nat) : Nat :=
  match firstIndex sep.chars (str.chars.drop pos) with
  | some i => pos + i
  | none => npos

/- A separator that was just skipped is in the string. -/
theorem lt_of_substr_eq_sep
    {pos : Nat}
    (hFront :
      substr str pos sep.chars.length = .ok sep.chars) :
    pos + sep.chars.length ≤ str.chars.length ∧
      0 < sep.chars.length := by
  have hPos := List.length_pos_iff.mpr sep.nonempty
  unfold substr at hFront
  split at hFront
  · injection hFront with hTake
    have hLength := congrArg List.length hTake
    rw [List.length_take, List.length_drop] at hLength
    omega
  · cases hFront

/-
  `while (str.substr(pos1, sep.size()) == sep)`: the start of
  a token that is not empty.
-/
def skip (pos1 : Nat) : Except Exn Nat :=
  match _hFront : substr str pos1 sep.chars.length with
  | .error e => .error e
  | .ok front =>
      if _hSep : front = sep.chars then
        skip (pos1 + sep.chars.length)
      else .ok pos1
termination_by str.chars.length - pos1
decreasing_by
  rw [_hSep] at _hFront
  have hInside := lt_of_substr_eq_sep str sep _hFront
  omega

variable (flags : SplitFlags)

/- The token of the given length, stripped if wanted. -/
def takeToken (pos1 token_len : Nat) : Except Exn Str :=
  if token_len ≠ 0 then
    match substr str pos1 token_len with
    | .error e => .error e
    | .ok token =>
        .ok
          (if flags.stripParts then strip isspace token []
          else token)
  else .ok []

/- `parts.push_back(token)`, unless it is not wanted. -/
def push (parts : List Str) (token : Str) : List Str :=
  if token ≠ [] ∨ flags.keepEmpty then parts ++ [token]
  else parts

variable (max_splits : Nat)

/- Where a token that starts at `pos1` ends. -/
def tokenEnd (parts : List Str) (pos1 : Nat) : Nat :=
  if max_splits ≠ 0 ∧ parts.length = max_splits then npos
  else find str sep pos1

/- One round of the loop: the parts and the new `pos2`. -/
def round (parts : List Str) (pos2 : Nat) :
    Except Exn (List Str × Nat) :=
  match
    (if flags.keepEmpty then .ok pos2
    else skip str sep pos2 : Except Exn Nat) with
  | .error e => .error e
  | .ok pos1 =>
      let pos2 := tokenEnd str sep max_splits parts pos1
      match takeToken isspace str flags pos1 (pos2 - pos1) with
      | .error e => .error e
      | .ok token => .ok (push flags parts token, pos2)

------------------------------------------------------------
-- Progress of the Loops
------------------------------------------------------------

theorem substr_of_le
    {pos : Nat} (hLe : pos ≤ str.chars.length) (n : Nat) :
    substr str pos n = .ok ((str.chars.drop pos).take n) :=
  if_pos hLe

/- The token starts here unless a separator does. -/
theorem skip_stop
    {pos : Nat} (hLe : pos ≤ str.chars.length)
    (hNot : ¬ sep.chars <+: str.chars.drop pos) :
    skip str sep pos = .ok pos := by
  have hFront :
      (str.chars.drop pos).take sep.chars.length ≠
        sep.chars := by
    intro hEq
    apply hNot
    rw [← hEq]
    exact List.take_prefix _ _
  rw [skip]
  split
  · next e hError =>
      rw [substr_of_le str hLe] at hError
      cases hError
  · next front hOk =>
      rw [substr_of_le str hLe] at hOk
      injection hOk with hTake
      rw [← hTake, dif_neg hFront]

theorem skip_more
    {pos : Nat} (hLe : pos ≤ str.chars.length)
    (hFront : sep.chars <+: str.chars.drop pos) :
    skip str sep pos =
      skip str sep (pos + sep.chars.length) := by
  have hTake :
      (str.chars.drop pos).take sep.chars.length =
        sep.chars :=
    (List.prefix_iff_eq_take.mp hFront).symm
  rw [skip]
  split
  · next e hError =>
      rw [substr_of_le str hLe] at hError
      cases hError
  · next front hOk =>
      rw [substr_of_le str hLe, hTake] at hOk
      injection hOk with hEq
      rw [dif_pos hEq.symm]

/- The separators that `skip` passes. -/
theorem skip_spec
    {pos : Nat} (hLe : pos ≤ str.chars.length) :
    ∃ k pos1, skip str sep pos = .ok pos1 ∧ pos ≤ pos1 ∧
      pos1 ≤ str.chars.length ∧
      str.chars.drop pos =
        (List.replicate k sep.chars).flatten ++
          str.chars.drop pos1 := by
  induction hLeft : str.chars.length - pos
    using Nat.strong_induction_on generalizing pos with
  | _ left ih =>
      by_cases hFront : sep.chars <+: str.chars.drop pos
      · have hPos := List.length_pos_iff.mpr sep.nonempty
        have hInside := hFront.length_le
        rw [List.length_drop] at hInside
        rcases
          ih (str.chars.length - (pos + sep.chars.length))
            (by omega) (by omega) rfl with
          ⟨k, pos1, hSkip, hAfter, hEnd, hDrop⟩
        refine ⟨k + 1, pos1, ?_, by omega, hEnd, ?_⟩
        · rw [skip_more str sep hLe hFront, hSkip]
        · rcases hFront with ⟨rest, hRest⟩
          rw [← List.drop_drop, ← hRest, List.drop_left]
            at hDrop
          rw [← hRest, hDrop, List.replicate_succ,
            List.flatten_cons, List.append_assoc]
      · exact
          ⟨0, pos, skip_stop str sep hLe hFront,
            Nat.le_refl pos, hLe, rfl⟩

theorem skip_error
    {pos : Nat} (hGt : str.chars.length < pos) :
    ∃ e, skip str sep pos = .error e := by
  rw [skip]
  split
  · next e _ => exact ⟨e, rfl⟩
  · next front hOk =>
      unfold substr at hOk
      rw [if_neg (by omega)] at hOk
      cases hOk

theorem le_of_skip
    {pos pos1 : Nat}
    (hSkip : skip str sep pos = .ok pos1) :
    pos ≤ pos1 := by
  by_cases hLe : pos ≤ str.chars.length
  · rcases skip_spec str sep hLe with
      ⟨k, other, hOther, hAfter, -, -⟩
    rw [hSkip] at hOther
    injection hOther with hEq
    rw [hEq]
    exact hAfter
  · rcases skip_error str sep (Nat.lt_of_not_le hLe) with
      ⟨e, hError⟩
    rw [hSkip] at hError
    cases hError

/- A position that `find` returns has a separator. -/
theorem find_spec
    {pos : Nat} (hFound : find str sep pos ≠ npos) :
    ∃ i, firstIndex sep.chars (str.chars.drop pos) =
        some i ∧
      find str sep pos = pos + i ∧
      pos + i + sep.chars.length ≤ str.chars.length := by
  have hPos := List.length_pos_iff.mpr sep.nonempty
  unfold find at hFound ⊢
  cases hFirst :
      firstIndex sep.chars (str.chars.drop pos) with
  | none =>
      rw [hFirst] at hFound
      exact absurd rfl hFound
  | some i =>
      have hInside := add_le_of_firstIndex hFirst
      rw [List.length_drop] at hInside
      exact ⟨i, rfl, rfl, by omega⟩

/- A token that is not the last one ends further on. -/
theorem round_progress
    {parts parts' : List Str} {pos2 pos : Nat}
    (hRound :
      round isspace str sep flags max_splits parts pos2 =
        .ok (parts', pos))
    (hMore : pos ≠ npos) :
    pos2 ≤ pos ∧
      pos + sep.chars.length ≤ str.chars.length := by
  unfold round at hRound
  split at hRound
  · cases hRound
  · next pos1 hStart =>
      have hAfter : pos2 ≤ pos1 := by
        split at hStart
        · injection hStart with hEq
          exact le_of_eq hEq
        · exact le_of_skip str sep hStart
      simp only at hRound
      split at hRound
      · cases hRound
      · injection hRound with hPair
        injection hPair with _ hEnd
        rw [← hEnd] at hMore ⊢
        unfold tokenEnd at hMore ⊢
        split at hMore
        · exact absurd rfl hMore
        · next hLimit =>
            rw [if_neg hLimit]
            rcases find_spec str sep hMore with
              ⟨i, -, hFind, hInside⟩
            rw [hFind]
            exact ⟨by omega, hInside⟩

------------------------------------------------------------
-- The Loop
------------------------------------------------------------

/- `while(true)`. -/
def splitLoop (parts : List Str) (pos2 : Nat) :
    Except Exn (List Str) :=
  match _hRound :
      round isspace str sep flags max_splits parts pos2 with
  | .error e => .error e
  | .ok (parts, pos2) =>
      if _hEnd : pos2 = npos then .ok parts
      else splitLoop parts (pos2 + sep.chars.length)
termination_by str.chars.length - pos2
decreasing_by
  have hPos := List.length_pos_iff.mpr sep.nonempty
  have hProgress :=
    round_progress isspace str sep flags max_splits _hRound
      _hEnd
  omega

/- `split`. -/
def split : Except Exn (List Str) :=
  splitLoop isspace str sep flags max_splits [] 0

theorem splitLoop_end
    {parts parts' : List Str} {pos2 : Nat}
    (hRound :
      round isspace str sep flags max_splits parts pos2 =
        .ok (parts', npos)) :
    splitLoop isspace str sep flags max_splits parts pos2 =
      .ok parts' := by
  rw [splitLoop]
  split
  · next e hError =>
      rw [hRound] at hError
      cases hError
  · next other pos hOk =>
      rw [hRound] at hOk
      cases hOk
      rw [dif_pos rfl]

theorem splitLoop_more
    {parts parts' : List Str} {pos2 pos : Nat}
    (hRound :
      round isspace str sep flags max_splits parts pos2 =
        .ok (parts', pos))
    (hMore : pos ≠ npos) :
    splitLoop isspace str sep flags max_splits parts pos2 =
      splitLoop isspace str sep flags max_splits parts'
        (pos + sep.chars.length) := by
  rw [splitLoop]
  split
  · next e hError =>
      rw [hRound] at hError
      cases hError
  · next other pos' hOk =>
      rw [hRound] at hOk
      cases hOk
      rw [dif_neg hMore]

------------------------------------------------------------
-- Tokens
------------------------------------------------------------

/- A part as the flags want it. -/
def part (token : Str) : Str :=
  if flags.stripParts then strip isspace token [] else token

theorem part_nil : part isspace flags [] = [] := by
  unfold part
  split <;> rfl

/- Stripping leaves a stretch of the string. -/
theorem strip_within (s strip_set : Str) :
    strip isspace s strip_set <:+: s := by
  have hFront :
      s.dropWhile (stripit isspace strip_set) <:+: s :=
    (List.dropWhile_suffix _).isInfix
  refine List.IsInfix.trans ?_ hFront
  rw [← List.reverse_infix]
  unfold strip
  rw [List.reverse_reverse]
  exact (List.dropWhile_suffix _).isInfix

theorem part_within (token : Str) :
    part isspace flags token <:+: token := by
  unfold part
  split
  · exact strip_within isspace token []
  · exact List.infix_refl token

theorem takeToken_eq
    {pos1 : Nat} (hLe : pos1 ≤ str.chars.length)
    (token_len : Nat) :
    takeToken isspace str flags pos1 token_len =
      .ok
        (part isspace flags
          ((str.chars.drop pos1).take token_len)) := by
  unfold takeToken
  by_cases hEmpty : token_len = 0
  · rw [hEmpty, List.take_zero, part_nil]
    rfl
  · rw [if_pos hEmpty, substr_of_le str hLe]
    rfl

/- The length of the last token is computed from `npos`. -/
theorem take_npos (pos1 : Nat) :
    (str.chars.drop pos1).take (npos - pos1) =
      str.chars.drop pos1 := by
  have hSize := str.size_lt
  apply List.take_of_length_le
  rw [List.length_drop]
  omega

/- Where the next token starts. -/
theorem start_spec
    {pos2 : Nat} (hLe : pos2 ≤ str.chars.length) :
    ∃ k pos1,
      (if flags.keepEmpty then .ok pos2
        else skip str sep pos2 : Except Exn Nat) =
          .ok pos1 ∧
      (flags.keepEmpty = true → k = 0) ∧
      pos1 ≤ str.chars.length ∧
      str.chars.drop pos2 =
        (List.replicate k sep.chars).flatten ++
          str.chars.drop pos1 := by
  by_cases hKeep : flags.keepEmpty = true
  · exact
      ⟨0, pos2, if_pos hKeep, fun _ => rfl, hLe, rfl⟩
  · rcases skip_spec str sep hLe with
      ⟨k, pos1, hSkip, -, hEnd, hDrop⟩
    rw [if_neg hKeep]
    exact
      ⟨k, pos1, hSkip, fun hYes => absurd hYes hKeep, hEnd,
        hDrop⟩

/-
  What one round does: either it takes all that is left, as
  the limit is reached or there is no separator, or it takes
  what is in front of the next separator.
-/
theorem round_spec
    (parts : List Str) {pos2 : Nat}
    (hLe : pos2 ≤ str.chars.length) :
    ∃ k pos1,
      (flags.keepEmpty = true → k = 0) ∧
      pos1 ≤ str.chars.length ∧
      str.chars.drop pos2 =
        (List.replicate k sep.chars).flatten ++
          str.chars.drop pos1 ∧
      ((max_splits ≠ 0 ∧ parts.length = max_splits ∨
          firstIndex sep.chars (str.chars.drop pos1) =
            none) ∧
        round isspace str sep flags max_splits parts pos2 =
          .ok
            (push flags parts
              (part isspace flags (str.chars.drop pos1)),
              npos) ∨
      ∃ i,
        ¬ (max_splits ≠ 0 ∧ parts.length = max_splits) ∧
        firstIndex sep.chars (str.chars.drop pos1) =
          some i ∧
        pos1 + i + sep.chars.length ≤ str.chars.length ∧
        round isspace str sep flags max_splits parts pos2 =
          .ok
            (push flags parts
              (part isspace flags
                ((str.chars.drop pos1).take i)),
              pos1 + i)) := by
  rcases start_spec str sep flags hLe with
    ⟨k, pos1, hStart, hKeep, hEnd, hDrop⟩
  refine ⟨k, pos1, hKeep, hEnd, hDrop, ?_⟩
  have hRound :
      round isspace str sep flags max_splits parts pos2 =
        .ok
          (push flags parts
            (part isspace flags
              ((str.chars.drop pos1).take
                (tokenEnd str sep max_splits parts pos1 -
                  pos1))),
            tokenEnd str sep max_splits parts pos1) := by
    unfold round
    rw [hStart]
    simp only [takeToken_eq isspace str flags hEnd]
  by_cases hLimit :
      max_splits ≠ 0 ∧ parts.length = max_splits
  · have hTokenEnd :
        tokenEnd str sep max_splits parts pos1 = npos :=
      if_pos hLimit
    left
    refine ⟨Or.inl hLimit, ?_⟩
    rw [hRound, hTokenEnd, take_npos]
  · have hTokenEnd :
        tokenEnd str sep max_splits parts pos1 =
          find str sep pos1 :=
      if_neg hLimit
    rw [hTokenEnd] at hRound
    cases hFirst :
        firstIndex sep.chars (str.chars.drop pos1) with
    | none =>
        have hFind : find str sep pos1 = npos := by
          unfold find
          rw [hFirst]
        left
        refine ⟨Or.inr rfl, ?_⟩
        rw [hRound, hFind, take_npos]
    | some i =>
        have hFind : find str sep pos1 = pos1 + i := by
          unfold find
          rw [hFirst]
        have hInside := add_le_of_firstIndex hFirst
        rw [List.length_drop] at hInside
        right
        refine ⟨i, hLimit, rfl, by omega, ?_⟩
        rw [hRound, hFind, Nat.add_sub_cancel_left]

/- A position behind a separator is in the string. -/
theorem add_ne_npos
    {pos1 i : Nat}
    (hInside :
      pos1 + i + sep.chars.length ≤ str.chars.length) :
    pos1 + i ≠ npos := by
  have hSize := str.size_lt
  omega

theorem push_keep
    (hKeep : flags.keepEmpty = true)
    (parts : List Str) (token : Str) :
    push flags parts token = parts ++ [token] :=
  if_pos (Or.inr hKeep)

/-
  With empty parts kept the loop makes the pieces, as many
  as the limit permits.
-/
theorem splitLoop_keep
    (hKeep : flags.keepEmpty = true) (n : Nat) :
    ∀ {parts : List Str} {pos2 : Nat},
      pos2 ≤ str.chars.length →
      (max_splits = 0 ∧
          (str.chars.drop pos2).length ≤ n ∨
        max_splits ≠ 0 ∧ parts.length + n = max_splits) →
      splitLoop isspace str sep flags max_splits parts
          pos2 =
        .ok
          (parts ++
            (pieces sep.chars n (str.chars.drop pos2)).map
              (part isspace flags)) := by
  have hPos := List.length_pos_iff.mpr sep.nonempty
  induction n with
  | zero =>
      intro parts pos2 hLe hBudget
      rcases
        round_spec isspace str sep flags max_splits parts hLe
        with ⟨k, pos1, hZero, hEnd, hDrop, hCases⟩
      rw [hZero hKeep] at hDrop
      rcases hCases with
        ⟨-, hRound⟩ | ⟨i, hLimit, hFirst, hInside, -⟩
      · rw [splitLoop_end isspace str sep flags max_splits
          hRound, push_keep flags hKeep, hDrop]
        rfl
      · rcases hBudget with ⟨-, hShort⟩ | ⟨hMax, hFull⟩
        · rw [hDrop, List.replicate_zero, List.flatten_nil,
            List.nil_append, List.length_drop] at hShort
          omega
        · exact absurd ⟨hMax, hFull⟩ hLimit
  | succ n ih =>
      intro parts pos2 hLe hBudget
      rcases
        round_spec isspace str sep flags max_splits parts hLe
        with ⟨k, pos1, hZero, hEnd, hDrop, hCases⟩
      rw [hZero hKeep, List.replicate_zero,
        List.flatten_nil, List.nil_append] at hDrop
      rcases hCases with
        ⟨hLast, hRound⟩ |
        ⟨i, hLimit, hFirst, hInside, hRound⟩
      · have hNone :
            firstIndex sep.chars (str.chars.drop pos1) =
              none := by
          rcases hLast with ⟨hMax, hFull⟩ | hNone
          · omega
          · exact hNone
        rw [splitLoop_end isspace str sep flags max_splits
          hRound, push_keep flags hKeep, hDrop,
          pieces_of_none hNone]
        rfl
      · have hNext :
            str.chars.drop (pos1 + i + sep.chars.length) =
              (str.chars.drop pos1).drop
                (i + sep.chars.length) := by
          rw [List.drop_drop, Nat.add_assoc]
        rw [splitLoop_more isspace str sep flags max_splits
          hRound (add_ne_npos str sep hInside),
          push_keep flags hKeep, ih hInside, hDrop,
          pieces_of_some hFirst, hNext]
        · simp only [List.map_cons, List.append_assoc,
            List.singleton_append]
        · rcases hBudget with ⟨hNone, hShort⟩ | ⟨hMax, hFull⟩
          · left
            refine ⟨hNone, ?_⟩
            rw [hDrop, List.length_drop] at hShort
            rw [List.length_drop]
            omega
          · right
            refine ⟨hMax, ?_⟩
            rw [List.length_append, List.length_singleton]
            omega

/- The parts that are not empty. -/
def visible (parts : List Str) : List Str :=
  (parts.map (part isspace flags)).filter (· ≠ [])

theorem visible_append (first second : List Str) :
    visible isspace flags (first ++ second) =
      visible isspace flags first ++
        visible isspace flags second := by
  unfold visible
  rw [List.map_append, List.filter_append]

theorem visible_replicate (k : Nat) :
    visible isspace flags (List.replicate k []) = [] := by
  unfold visible
  rw [List.map_replicate, part_nil]
  simp

theorem push_visible
    (hKeep : ¬ flags.keepEmpty = true)
    (parts : List Str) (token : Str) :
    push flags parts (part isspace flags token) =
      parts ++ visible isspace flags [token] := by
  unfold push visible
  by_cases hEmpty : part isspace flags token = []
  · simp [hEmpty, hKeep]
  · simp [hEmpty]

/-
  Without a limit and without empty parts the loop makes the
  pieces that are not empty.
-/
theorem splitLoop_visible
    (hKeep : ¬ flags.keepEmpty = true) (n : Nat) :
    ∀ {parts : List Str} {pos2 : Nat},
      pos2 ≤ str.chars.length →
      (str.chars.drop pos2).length ≤ n →
      splitLoop isspace str sep flags 0 parts pos2 =
        .ok
          (parts ++
            visible isspace flags
              (pieces sep.chars n
                (str.chars.drop pos2))) := by
  have hPos := List.length_pos_iff.mpr sep.nonempty
  induction n using Nat.strong_induction_on with
  | _ n ih =>
      intro parts pos2 hLe hShort
      rcases
        round_spec isspace str sep flags 0 parts hLe with
        ⟨k, pos1, -, hEnd, hDrop, hCases⟩
      have hSkipped := le_length_flatten sep.nonempty k
      rw [hDrop, List.length_append] at hShort
      rcases Nat.exists_eq_add_of_le
        (show k ≤ n by omega) with ⟨n', hSum⟩
      rw [hDrop, hSum, pieces_flatten, visible_append,
        visible_replicate, List.nil_append]
      rcases hCases with
        ⟨hLast, hRound⟩ |
        ⟨i, -, hFirst, hInside, hRound⟩
      · have hNone :
            firstIndex sep.chars (str.chars.drop pos1) =
              none := by
          rcases hLast with ⟨hMax, -⟩ | hNone
          · exact absurd rfl hMax
          · exact hNone
        rw [splitLoop_end isspace str sep flags 0 hRound,
          push_visible isspace flags hKeep,
          pieces_of_none hNone]
      · rw [List.length_drop] at hShort
        rcases Nat.exists_eq_add_of_le'
          (show 1 ≤ n' by omega) with ⟨m, hMore⟩
        have hNext :
            str.chars.drop (pos1 + i + sep.chars.length) =
              (str.chars.drop pos1).drop
                (i + sep.chars.length) := by
          rw [List.drop_drop, Nat.add_assoc]
        have hRest :
            (str.chars.drop
              (pos1 + i + sep.chars.length)).length ≤ m := by
          rw [List.length_drop]
          omega
        have hCons :
            visible isspace flags
                ((str.chars.drop pos1).take i ::
                  pieces sep.chars m
                    ((str.chars.drop pos1).drop
                      (i + sep.chars.length))) =
              visible isspace flags
                  [(str.chars.drop pos1).take i] ++
                visible isspace flags
                  (pieces sep.chars m
                    ((str.chars.drop pos1).drop
                      (i + sep.chars.length))) :=
          visible_append isspace flags
            [(str.chars.drop pos1).take i] _
        rw [splitLoop_more isspace str sep flags 0 hRound
            (add_ne_npos str sep hInside),
          push_visible isspace flags hKeep,
          ih m (by omega) hInside hRest, hMore,
          pieces_of_some hFirst, hCons, hNext,
          List.append_assoc]

/- What a push adds is at most the token. -/
theorem push_cases (parts : List Str) (token : Str) :
    push flags parts token = parts ++ [token] ∨
      push flags parts token = parts := by
  unfold push
  split
  · left
    rfl
  · right
    rfl

/-
  The induction over the rounds of the loop: what holds when
  a round takes all that is left, and in front of a round
  after which it holds, holds at every position.
-/
theorem rounds_induction
    {P : List Str → Nat → Prop}
    (hLast :
      ∀ {parts : List Str} {pos2 pos1 : Nat},
        pos2 ≤ str.chars.length →
        round isspace str sep flags max_splits parts pos2 =
          .ok
            (push flags parts
              (part isspace flags (str.chars.drop pos1)),
              npos) →
        P parts pos2)
    (hMore :
      ∀ {parts : List Str} {pos2 pos1 i : Nat},
        pos2 ≤ str.chars.length →
        ¬ (max_splits ≠ 0 ∧ parts.length = max_splits) →
        firstIndex sep.chars (str.chars.drop pos1) =
          some i →
        pos1 + i + sep.chars.length ≤ str.chars.length →
        pos2 < pos1 + i + sep.chars.length →
        round isspace str sep flags max_splits parts pos2 =
          .ok
            (push flags parts
              (part isspace flags
                ((str.chars.drop pos1).take i)),
              pos1 + i) →
        P (push flags parts
            (part isspace flags
              ((str.chars.drop pos1).take i)))
          (pos1 + i + sep.chars.length) →
        P parts pos2)
    (parts : List Str) {pos2 : Nat}
    (hLe : pos2 ≤ str.chars.length) :
    P parts pos2 := by
  have hPos := List.length_pos_iff.mpr sep.nonempty
  induction hLeft : str.chars.length - pos2
    using Nat.strong_induction_on generalizing parts pos2
    with
  | _ left ih =>
      rcases
        round_spec isspace str sep flags max_splits parts hLe
        with ⟨k, pos1, -, hEnd, hDrop, hCases⟩
      have hShort := congrArg List.length hDrop
      rw [List.length_append, List.length_drop,
        List.length_drop] at hShort
      rcases hCases with
        ⟨-, hRound⟩ | ⟨i, hLimit, hFirst, hInside, hRound⟩
      · exact hLast hLe hRound
      · exact
          hMore hLe hLimit hFirst hInside (by omega) hRound
            (ih _ (by omega) _ hInside rfl)

/-
  With a limit of `m` there are at most `m + 1` parts, and
  only the last one can hold a separator.
-/
theorem splitLoop_limit
    (hMax : max_splits ≠ 0)
    {parts : List Str} {pos2 : Nat}
    (hLe : pos2 ≤ str.chars.length)
    (hParts : parts.length ≤ max_splits) :
    ∃ tail,
      splitLoop isspace str sep flags max_splits parts
          pos2 =
        .ok (parts ++ tail) ∧
      parts.length + tail.length ≤ max_splits + 1 ∧
      ∀ p ∈ tail.dropLast, ¬ sep.chars <:+: p := by
  revert hParts
  apply
    rounds_induction isspace str sep flags max_splits
      (P := fun parts pos2 =>
        parts.length ≤ max_splits →
        ∃ tail,
          splitLoop isspace str sep flags max_splits parts
              pos2 =
            .ok (parts ++ tail) ∧
          parts.length + tail.length ≤ max_splits + 1 ∧
          ∀ p ∈ tail.dropLast, ¬ sep.chars <:+: p)
      ?_ ?_ parts hLe
  · intro parts pos2 pos1 hLe hRound hParts
    rw [splitLoop_end isspace str sep flags max_splits
      hRound]
    rcases
      push_cases flags parts
        (part isspace flags (str.chars.drop pos1)) with
      hPush | hPush
    · rw [hPush]
      refine ⟨_, rfl, ?_, ?_⟩
      · rw [List.length_singleton]
        omega
      · intro p hMem
        exact absurd hMem List.not_mem_nil
    · rw [hPush]
      refine ⟨[], by rw [List.append_nil], ?_, ?_⟩
      · rw [List.length_nil]
        omega
      · intro p hMem
        exact absurd hMem List.not_mem_nil
  · intro parts pos2 pos1 i hLe hLimit hFirst hInside
      hLater hRound ih hParts
    have hFree :
        ¬ sep.chars <:+:
          part isspace flags
            ((str.chars.drop pos1).take i) := by
      intro hInfix
      exact
        not_infix_of_firstIndex sep.nonempty hFirst
          (hInfix.trans (part_within isspace flags _))
    rw [splitLoop_more isspace str sep flags max_splits
      hRound (add_ne_npos str sep hInside)]
    generalize
      part isspace flags
        ((str.chars.drop pos1).take i) = token
      at hFree ih
    rcases push_cases flags parts token with hPush | hPush
    · rw [hPush] at ih ⊢
      have hMore :
          (parts ++ [token]).length ≤ max_splits := by
        rw [List.length_append, List.length_singleton]
        omega
      rcases ih hMore with ⟨tail, hLoop, hCount, hTail⟩
      rw [List.length_append, List.length_singleton]
        at hCount
      refine ⟨token :: tail, ?_, ?_, ?_⟩
      · rw [hLoop, List.append_assoc]
        rfl
      · rw [List.length_cons]
        omega
      · intro p hMem
        cases tail with
        | nil => exact absurd hMem List.not_mem_nil
        | cons next tail =>
            rw [List.dropLast_cons_cons] at hMem
            rcases List.mem_cons.mp hMem with
              hHead | hRest
            · rw [hHead]
              exact hFree
            · exact hTail p hRest
    · rw [hPush] at ih ⊢
      exact ih hParts

------------------------------------------------------------
-- The Law
------------------------------------------------------------

/-
  What `split` is for, told for one limit: none if it is
  zero, and otherwise how many cuts are made at most.
-/
structure Lawful : Prop where
  joined :
    flags.keepEmpty = true → flags.stripParts = false →
      ∃ parts,
        split isspace str sep flags max_splits = .ok parts ∧
        sep.chars.intercalate parts = str.chars ∧
        (max_splits = 0 →
          ∀ p ∈ parts, ¬ sep.chars <:+: p)
  filtered :
    flags.keepEmpty = false →
      ∃ kept,
        split isspace str sep ⟨false, true⟩ 0 = .ok kept ∧
        split isspace str sep flags 0 =
          .ok
            ((kept.map (part isspace flags)).filter
              (· ≠ []))
  limited :
    max_splits ≠ 0 →
      ∃ parts,
        split isspace str sep flags max_splits = .ok parts ∧
        parts.length ≤ max_splits + 1 ∧
        ∀ p ∈ parts.dropLast, ¬ sep.chars <:+: p

theorem split_keep
    (hKeep : flags.keepEmpty = true) {n : Nat}
    (hBudget :
      max_splits = 0 ∧ str.chars.length ≤ n ∨
        max_splits ≠ 0 ∧ n = max_splits) :
    split isspace str sep flags max_splits =
      .ok
        ((pieces sep.chars n str.chars).map
          (part isspace flags)) := by
  unfold split
  rw [splitLoop_keep isspace str sep flags max_splits hKeep
    n (Nat.zero_le _)]
  · rfl
  · rw [List.length_nil, Nat.zero_add]
    exact hBudget

theorem split_visible
    (hKeep : ¬ flags.keepEmpty = true) :
    split isspace str sep flags 0 =
      .ok
        (visible isspace flags
          (pieces sep.chars str.chars.length
            str.chars)) := by
  unfold split
  rw [splitLoop_visible isspace str sep flags hKeep
    str.chars.length (Nat.zero_le _) (le_of_eq rfl)]
  rfl

/- Every string is split lawfully at every separator. -/
theorem split_lawful :
    Lawful isspace str sep flags max_splits where
  joined := by
    intro hKeep hPlain
    have hPart : part isspace flags = id := by
      funext token
      unfold part
      rw [hPlain]
      rfl
    by_cases hMax : max_splits = 0
    · refine
        ⟨pieces sep.chars str.chars.length str.chars,
          ?_, intercalate_pieces _ _ _, ?_⟩
      · rw [split_keep isspace str sep flags max_splits
            hKeep (Or.inl ⟨hMax, Nat.le_refl _⟩),
          hPart, List.map_id]
      · intro _
        exact
          not_infix_of_mem_pieces sep.nonempty
            (Nat.le_refl _)
    · refine
        ⟨pieces sep.chars max_splits str.chars,
          ?_, intercalate_pieces _ _ _,
          fun hZero => absurd hZero hMax⟩
      rw [split_keep isspace str sep flags max_splits
          hKeep (Or.inr ⟨hMax, rfl⟩),
        hPart, List.map_id]
  filtered := by
    intro hKeep
    have hPart : part isspace ⟨false, true⟩ = id := rfl
    refine
      ⟨pieces sep.chars str.chars.length str.chars, ?_, ?_⟩
    · rw [split_keep isspace str sep ⟨false, true⟩ 0 rfl
          (Or.inl ⟨rfl, Nat.le_refl _⟩),
        hPart, List.map_id]
    · apply split_visible
      rw [hKeep]
      decide
  limited := by
    intro hMax
    have hStart :
        ([] : List Str).length ≤ max_splits :=
      Nat.zero_le _
    rcases
      splitLoop_limit isspace str sep flags max_splits hMax
        (Nat.zero_le _) hStart with
      ⟨tail, hLoop, hCount, hTail⟩
    rw [List.length_nil, Nat.zero_add] at hCount
    exact ⟨tail, hLoop, hCount, hTail⟩

end Code

/- `std::isspace` in the "C" locale. -/
def isspaceC (ch : Byte) : Bool :=
  ch = 32 ∨ 9 ≤ ch ∧ ch ≤ 13

/- Parts that were stripped do not join to the input. -/
theorem split_strips_kept :
    ∃ (input : View) (comma : Separator) (parts : List Str),
      split isspaceC input comma ⟨true, true⟩ 1 =
        .ok parts ∧
      parts = [Cosmos.str "a", Cosmos.str "b"] ∧
      comma.chars.intercalate parts ≠ input.chars := by
  refine
    ⟨⟨Cosmos.str " a,b", by decide⟩,
      ⟨Cosmos.str ",", by decide⟩, _,
      split_keep _ _ _ _ _ rfl
        (Or.inr ⟨by decide, rfl⟩),
      ?_, ?_⟩ <;> decide

end Split

end Cosmos
