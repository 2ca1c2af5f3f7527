import LibCosmos.FS.FileDescriptor
import LibCosmos.Foundation.Buffer
import LibCosmos.Foundation.Rounds

/-
  The supplementary groups of the process
  (`src/proc/process.cxx`).

  Main declarations:
    * `Groups.getSupplementaryGroups`
    * `Groups.Promised`
    * `Groups.promised_iff`
-/

namespace Cosmos

/- `enum class GroupID : gid_t`. -/
structure GroupID where
  raw : UInt32
deriving DecidableEq, Repr, Inhabited

namespace Groups

------------------------------------------------------------
-- The Code
------------------------------------------------------------

def ngroupsMax : Nat := 65536

/- The vector that the loop starts with. -/
def start : List GroupID :=
  List.replicate 32 ⟨0⟩

/-
  `::getgroups`: the number of groups, or the error, and the
  vector with the groups at its begin.
-/
def getgroups
    (answer : Sys (List GroupID)) (ret : List GroupID) :
    Sys Nat × List GroupID :=
  match answer with
  | .error e => (.error e, ret)
  | .ok groups =>
      if groups.length ≤ ret.length then
        (.ok groups.length, Buffer.write ret 0 groups)
      else (.error .invalidArg, ret)

/- `get_supplementary_groups`. -/
def getSupplementaryGroups :
    Rounds (Sys (List GroupID)) (List GroupID)
      (Except Exn (List GroupID)) where
  round answer ret :=
    match getgroups answer ret with
    | (.ok numGroups, ret) =>
        .stop (.ok (Buffer.resize ⟨0⟩ ret numGroups))
    | (.error e, ret) =>
        if e = .invalidArg then
          let ret := Buffer.resize ⟨0⟩ ret (ret.length <<< 1)
          if ret.length ≥ ngroupsMax then
            .stop
              (.error
                (.runtimeError
                  (str
                    ("excess number of supplementary " ++
                      "groups"))))
          else .next ret
        else .stop (.error (.apiError e (str "getgroups()")))

/-
  The call returns the groups, if the kernel admits so many,
  or throws the error of a call that failed otherwise.
-/
def Promised (groups : List GroupID) : Prop :=
  groups.length ≤ ngroupsMax →
    getSupplementaryGroups.Settles start groups
      (· ≠ .invalidArg)
      (Except.mapError fun e =>
        .apiError e (str "getgroups()"))

------------------------------------------------------------
-- The Limit
------------------------------------------------------------

/- What a vector that is too small comes to. -/
theorem round_small
    {groups ret : List GroupID}
    (hSmall : ret.length < groups.length) :
    getSupplementaryGroups.round (.ok groups) ret =
      if ngroupsMax ≤ ret.length * 2 then
        .stop
          (.error
            (.runtimeError
              (str
                ("excess number of supplementary " ++
                  "groups"))))
      else
        .next (Buffer.resize ⟨0⟩ ret (ret.length * 2)) := by
  have hDouble : ret.length <<< 1 = ret.length * 2 :=
    Nat.shiftLeft_eq _ _
  unfold getSupplementaryGroups getgroups
  simp only [if_neg (Nat.not_le.mpr hSmall), if_true,
    hDouble, Buffer.length_resize, ge_iff_le]

theorem round_large
    {groups ret : List GroupID}
    (hLarge : groups.length ≤ ret.length) :
    getSupplementaryGroups.round (.ok groups) ret =
      .stop (.ok groups) := by
  unfold getSupplementaryGroups getgroups
  simp only [if_pos hLarge, Buffer.resize_write ⟨0⟩ hLarge]

/- Up to half of the limit the groups are found. -/
theorem settles_of_half
    {groups : List GroupID}
    (hHalf : groups.length ≤ 32768) :
    getSupplementaryGroups.Settles start groups
      (· ≠ .invalidArg)
      (Except.mapError fun e =>
        .apiError e (str "getgroups()")) := by
  refine
    Rounds.settles_of_round _ (fun ret => 0 < ret.length)
      (fun ret => groups.length - ret.length) ?_ ?_ ?_
  · unfold start
    rw [List.length_replicate]
    decide
  · intro ret hPos
    by_cases hLarge : groups.length ≤ ret.length
    · exact Or.inl (round_large hLarge)
    · right
      have hBelow : ¬ ngroupsMax ≤ ret.length * 2 := by
        unfold ngroupsMax
        omega
      refine
        ⟨Buffer.resize ⟨0⟩ ret (ret.length * 2), ?_, ?_, ?_⟩
      · rw [round_small (Nat.not_le.mp hLarge),
          if_neg hBelow]
      · rw [Buffer.length_resize]
        omega
      · rw [Buffer.length_resize]
        omega
  · intro ret e hOther
    unfold getSupplementaryGroups getgroups
    simp only [if_neg hOther]
    rfl

/-
  The vector has 32 elements times a power of two, and the
  limit is one, too. So it ends up with half of the limit.
-/
theorem length_of_waits
    {groups : List GroupID} {n : Nat} {ret : List GroupID}
    (hWaits :
      getSupplementaryGroups.Waits (fun _ => .ok groups)
        start n ret) :
    ret.length ≤ 32768 := by
  have hInv : ret.length = 32 * 2 ^ n ∧
      ret.length < ngroupsMax := by
    refine
      Rounds.waits_invariant _ _
        (fun k ret =>
          ret.length = 32 * 2 ^ k ∧ ret.length < ngroupsMax)
        ?_ ?_ hWaits
    · unfold start ngroupsMax
      rw [List.length_replicate]
      decide
    · intro k ret ret' hInv hNext
      rcases hInv with ⟨hLength, -⟩
      by_cases hLarge : groups.length ≤ ret.length
      · rw [round_large hLarge] at hNext
        cases hNext
      · rw [round_small (Nat.not_le.mp hLarge)] at hNext
        split at hNext
        · cases hNext
        · next hBelow =>
            injection hNext with hSame
            rw [← hSame, Buffer.length_resize, Nat.pow_succ]
            exact ⟨by omega, by omega⟩
  rcases hInv with ⟨hLength, hBelow⟩
  have hExponent : n < 11 := by
    by_contra hLarge
    have hPow : 2 ^ 11 ≤ 2 ^ n :=
      Nat.pow_le_pow_right (by decide) (by omega)
    unfold ngroupsMax at hBelow
    omega
  have hPow : 2 ^ n ≤ 2 ^ 10 :=
    Nat.pow_le_pow_right (by decide) (by omega)
  omega

/- From there on it gives up. -/
theorem not_settles_of_above
    {groups : List GroupID} {Fails : Errno → Prop}
    (hAbove : 32768 < groups.length) :
    ¬ getSupplementaryGroups.Settles start groups Fails
      (Except.mapError fun e =>
        .apiError e (str "getgroups()")) := by
  intro hSettles
  rcases hSettles (fun _ => .ok groups) fun _ => Or.inl rfl
    with ⟨n, hEnds, -⟩
  rcases (Rounds.ends_succ_iff _ _ _ _ _).mp hEnds with
    ⟨ret, hWaits, hRound⟩
  have hLength := length_of_waits hWaits
  rw [round_small (by omega)] at hRound
  split at hRound
  · cases hRound
  · cases hRound

/-
  The promise is kept for up to half of the groups that the
  kernel admits.
-/
theorem promised_iff (groups : List GroupID) :
    Promised groups ↔
      groups.length ≤ 32768 ∨
        ngroupsMax < groups.length := by
  constructor
  · intro hPromised
    by_contra hBetween
    rw [not_or] at hBetween
    rcases hBetween with ⟨hAbove, hAdmitted⟩
    exact
      not_settles_of_above (Nat.not_le.mp hAbove)
        (hPromised (Nat.not_lt.mp hAdmitted))
  · rintro (hHalf | hNever) hAdmitted
    · exact settles_of_half hHalf
    · exact absurd hAdmitted (Nat.not_le.mpr hNever)

/- One group more than half of the limit. -/
theorem not_promised_above :
    ¬ Promised (List.replicate 32769 ⟨1000⟩) := by
  intro hPromised
  refine not_settles_of_above ?_ (hPromised ?_)
  · rw [List.length_replicate]
    decide
  · unfold ngroupsMax
    rw [List.length_replicate]
    decide

end Groups

end Cosmos
