import LibCosmos.Core.Str
import LibCosmos.FS.FileDescriptor
import LibCosmos.Foundation.Buffer
import LibCosmos.Foundation.Rounds

/-
  Strings that come from a call which needs a buffer that is
  large enough (`src/fs/filesystem.cxx`,
  `src/formatting.cxx`).

  The answers are what each call in the loop would show with
  a large enough buffer, or its error.

  Main declarations:
    * `Growing.readSymlink`, `Growing.getWorkingDir`
    * `Growing.sprintfV`
    * `Growing.Exact`
    * `Growing.exact_of_int`
-/

namespace Cosmos

namespace Growing

------------------------------------------------------------
-- System Calls
------------------------------------------------------------

/- The size that all the buffers start with. -/
def start : Str :=
  Buffer.resize 0 [] 128

/-
  `::readlink` behind a `std::function` that returns `int`:
  the result, the value of `errno` and the buffer.
-/
def readlinkFunc
    (errno : Errno) (answer : Sys Str) (buf : Str) :
    Int32 × Errno × Str :=
  match answer with
  | .error e => (-1, e, buf)
  | .ok target =>
      (Int32.ofNat (min target.length buf.length), errno,
        Buffer.write buf 0 (target.take buf.length))

/- `::getcwd`, with the error if it returns null. -/
def getcwd (answer : Sys Str) (buf : Str) :
    Option Errno × Str :=
  match answer with
  | .error e => (some e, buf)
  | .ok path =>
      if path.length < buf.length then
        (none, Buffer.write buf 0 (path ++ [0]))
      else (some .range, buf)

/-
  `vsnprintf` into a string and the byte behind it. The full
  length has to be an `int`.
-/
def vsnprintf (answer : Sys Str) (buf : Str) :
    Int32 × Str :=
  match answer with
  | .error _ => (-1, buf)
  | .ok text =>
      if text.length < 2 ^ 31 then
        (Int32.ofNat text.length,
          Buffer.write buf 0
            ((text.take buf.length ++ [0]).take buf.length))
      else (-1, buf)

------------------------------------------------------------
-- The Loops
------------------------------------------------------------

/- `FileError{path, call}`. -/
def fileError
    (path : Str) (call : String) (e : Errno) : Exn :=
  .apiError e (path ++ str ": " ++ str call)

/- The `read_symlink` that both functions share. -/
def readSymlink
    (errno : Errno) (path : Str) (call : String) :
    Rounds (Sys Str) Str (Except Exn Str) where
  round answer ret :=
    match readlinkFunc errno answer ret with
    | (res, errno, ret) =>
        if res < 0 then
          .stop (.error (fileError path call errno))
        else
          let len := res.toInt.toNat
          if len < ret.length then
            .stop (.ok (Buffer.resize 0 ret len))
          else .next (Buffer.resize 0 ret (len + 1))

/- `read_symlink(path)`. -/
def readSymlinkPath (errno : Errno) (path : Str) :=
  readSymlink errno path "readlink()"

def readSymlinkAt (errno : Errno) (path : Str) :=
  readSymlink errno path "readlinkat()"

def getWorkingDir :
    Rounds (Sys Str) Str (Except Exn Str) where
  round answer ret :=
    match getcwd answer ret with
    | (some e, ret) =>
        if e = .range then
          .next (Buffer.resize 0 ret (ret.length * 2))
        else .stop (.error (.apiError e (str "getcwd()")))
    | (none, ret) =>
        match ret.find 0 0 with
        | some termpos =>
            .stop (.ok (Buffer.resize 0 ret termpos))
        | none => .stop (.ok ret)

/- A fatal error gives an empty string. -/
def sprintfV : Rounds (Sys Str) Str Str where
  round answer ret :=
    match vsnprintf answer ret with
    | (written, ret) =>
        if written < 0 then .stop []
        else if written.toInt.toNat ≤ ret.length then
          .stop (Buffer.resize 0 ret written.toInt.toNat)
        else .next (Buffer.resize 0 ret written.toInt.toNat)

/- The loop gives what its last call shows. -/
def Exact {ρ : Type}
    (loop : Rounds (Sys Str) Str ρ) (value : Str)
    (Fails : Errno → Prop) (result : Sys Str → ρ) : Prop :=
  loop.Settles start value Fails result

------------------------------------------------------------
-- Exact Strings
------------------------------------------------------------

theorem toInt_ofNat
    {n : Nat} (hSmall : n < 2 ^ 31) :
    (Int32.ofNat n).toInt = n := by
  refine Int32.toInt_ofNat_of_lt hSmall

theorem not_ofNat_neg
    {n : Nat} (hSmall : n < 2 ^ 31) :
    ¬ Int32.ofNat n < 0 := by
  rw [Int32.lt_iff_toInt_lt, toInt_ofNat hSmall]
  exact Int.not_lt.mpr (Int.natCast_nonneg n)

theorem start_pos : 0 < start.length := by
  unfold start
  rw [Buffer.length_resize]
  decide

theorem length_write_zero
    {buf data : Str} (hFits : data.length ≤ buf.length) :
    (Buffer.write buf 0 data).length = buf.length := by
  apply Buffer.length_write
  omega

/- The buffer of `readlink` grows by one byte at a time. -/
theorem exact_readSymlink
    (errno : Errno) (path : Str) (call : String)
    {target : Str} (hSmall : target.length < 2 ^ 31) :
    Exact (readSymlink errno path call) target
      (fun _ => True)
      (Except.mapError (fileError path call)) := by
  refine
    Rounds.settles_of_round _ (fun ret => 0 < ret.length)
      (fun ret => target.length + 1 - ret.length) start_pos
      ?_ (fun _ _ _ => rfl)
  intro ret hPos
  unfold readSymlink readlinkFunc
  by_cases hShort : target.length < ret.length
  · left
    have hMin : min target.length ret.length =
        target.length := by omega
    have hTake : target.take ret.length = target :=
      List.take_of_length_le hShort.le
    have hLength := length_write_zero hShort.le
    have hLen : (target.length : Int).toNat =
        target.length := Int.toNat_natCast _
    simp only [hMin, hTake, if_neg (not_ofNat_neg hSmall),
      toInt_ofNat hSmall, hLen, hLength, if_pos hShort]
    rw [Buffer.resize_write 0 hShort.le]
    rfl
  · right
    have hMin : min target.length ret.length =
        ret.length := by omega
    have hSize : ret.length < 2 ^ 31 := by omega
    have hFits : (target.take ret.length).length ≤
        ret.length := List.length_take_le _ _
    have hLen : (ret.length : Int).toNat = ret.length :=
      Int.toNat_natCast _
    simp only [hMin, if_neg (not_ofNat_neg hSize),
      toInt_ofNat hSize, hLen, length_write_zero hFits,
      if_neg (Nat.lt_irrefl _)]
    refine ⟨_, rfl, ?_, ?_⟩
    · rw [Buffer.length_resize]
      exact Nat.succ_pos _
    · rw [Buffer.length_resize]
      omega

/- The buffer of `getcwd` is doubled. -/
theorem exact_getWorkingDir
    {path : Str} (hPath : 0 ∉ path) :
    Exact getWorkingDir path (· ≠ .range)
      (Except.mapError fun e =>
        .apiError e (str "getcwd()")) := by
  refine
    Rounds.settles_of_round _ (fun ret => 0 < ret.length)
      (fun ret => path.length + 1 - ret.length) start_pos
      ?_ ?_
  · intro ret hPos
    unfold getWorkingDir getcwd
    by_cases hShort : path.length < ret.length
    · left
      have hFits : (path ++ [0]).length ≤ ret.length := by
        rw [List.length_append]
        exact hShort
      have hWritten :
          (Buffer.write ret 0 (path ++ [0])).drop 0 =
            path ++ 0 :: ret.drop (path.length + 1) := by
        unfold Buffer.write
        simp
      have hFind := Str.find_eq_some hWritten hPath
      rw [Nat.zero_add] at hFind
      have hLength := length_write_zero hFits
      simp only [if_pos hShort, hFind]
      rw [Buffer.resize_of_le 0 (hShort.le.trans hLength.ge)]
      rw [List.drop_zero] at hWritten
      rw [hWritten, List.take_left]
      rfl
    · right
      simp only [if_neg hShort, if_true]
      refine ⟨_, rfl, ?_, ?_⟩
      · rw [Buffer.length_resize]
        omega
      · rw [Buffer.length_resize]
        omega
  · intro ret e hOther
    unfold getWorkingDir getcwd
    simp only [if_neg hOther]
    rfl

/- The buffer of `vsnprintf` is right at the second try. -/
theorem exact_sprintfV
    {text : Str} (hSmall : text.length < 2 ^ 31) :
    Exact sprintfV text (fun _ => True)
      (fun answer => answer.toOption.getD []) := by
  refine
    Rounds.settles_of_round _ (fun _ => True)
      (fun ret => text.length - ret.length) trivial
      ?_ (fun _ _ _ => rfl)
  intro ret _
  have hLen : (text.length : Int).toNat = text.length :=
    Int.toNat_natCast _
  have hFits :
      ((text.take ret.length ++ [0]).take
          ret.length).length ≤ ret.length :=
    List.length_take_le _ _
  have hLength := length_write_zero hFits
  unfold sprintfV vsnprintf
  simp only [if_pos hSmall, if_neg (not_ofNat_neg hSmall),
    toInt_ofNat hSmall, hLen, hLength]
  by_cases hShort : text.length ≤ ret.length
  · left
    have hTake : text.take ret.length = text :=
      List.take_of_length_le hShort
    rw [if_pos hShort,
      Buffer.resize_of_le 0 (hShort.trans hLength.ge), hTake]
    have hData :
        (text ++ [0]).take ret.length =
          text ++
            ([0] : Str).take (ret.length - text.length) := by
      rw [List.take_append, hTake]
    rw [hData]
    unfold Buffer.write
    simp
    rfl
  · right
    rw [if_neg hShort]
    refine ⟨_, rfl, trivial, ?_⟩
    rw [Buffer.length_resize]
    omega

/-
  Targets and texts whose length is an `int` and all paths
  of working directories come back as they are.
-/
theorem exact_of_int
    (errno : Errno) (path : Str) {target dir text : Str}
    (hTarget : target.length < 2 ^ 31)
    (hDir : 0 ∉ dir)
    (hText : text.length < 2 ^ 31) :
    Exact (readSymlinkPath errno path) target
        (fun _ => True)
        (Except.mapError (fileError path "readlink()")) ∧
      Exact (readSymlinkAt errno path) target
        (fun _ => True)
        (Except.mapError (fileError path "readlinkat()")) ∧
      Exact getWorkingDir dir (· ≠ .range)
        (Except.mapError fun e =>
          .apiError e (str "getcwd()")) ∧
      Exact sprintfV text (fun _ => True)
        (fun answer => answer.toOption.getD []) :=
  ⟨exact_readSymlink errno path "readlink()" hTarget,
    exact_readSymlink errno path "readlinkat()" hTarget,
    exact_getWorkingDir hDir, exact_sprintfV hText⟩

theorem exact_of_int_short :
    Exact (readSymlinkPath .noError (str "/proc/self/exe"))
        (str "/usr/bin/ls") (fun _ => True)
        (Except.mapError
          (fileError (str "/proc/self/exe")
            "readlink()")) ∧
      Exact (readSymlinkAt .noError (str "/proc/self/exe"))
        (str "/usr/bin/ls") (fun _ => True)
        (Except.mapError
          (fileError (str "/proc/self/exe")
            "readlinkat()")) ∧
      Exact getWorkingDir (List.replicate 128 97)
        (· ≠ .range)
        (Except.mapError fun e =>
          .apiError e (str "getcwd()")) ∧
      Exact sprintfV (List.replicate 129 48)
        (fun _ => True)
        (fun answer => answer.toOption.getD []) := by
  refine
    exact_of_int .noError (str "/proc/self/exe")
      (by decide) ?_ (by rw [List.length_replicate]; decide)
  intro hMem
  cases List.eq_of_mem_replicate hMem

/- The length of what `readlink` shows has to be an `int`. -/
theorem length_readSymlink
    {errno : Errno} {path : Str} {call : String}
    {answers : Nat → Sys Str} {s t : Str} {n : Nat}
    (hEnds :
      (readSymlink errno path call).Ends answers s (n + 1)
        (.ok t)) :
    t.length < 2 ^ 31 := by
  rw [Rounds.ends_succ_iff] at hEnds
  rcases hEnds with ⟨ret, -, hRound⟩
  unfold readSymlink at hRound
  rcases hCall : readlinkFunc errno (answers n) ret with
    ⟨res, errno', ret'⟩
  have hBound := res.toInt_lt
  simp only [hCall] at hRound
  split at hRound
  · cases hRound
  · split at hRound
    · injection hRound with hOk
      injection hOk with hText
      rw [← hText, Buffer.length_resize]
      omega
    · cases hRound

/- A target that is too long for an `int` is an error. -/
theorem not_exact_long :
    ¬ Exact (readSymlinkPath .noError (str "link"))
      (List.replicate (2 ^ 31) 97) (fun _ => True)
      (Except.mapError
        (fileError (str "link") "readlink()")) := by
  intro hExact
  rcases
      hExact (fun _ => .ok (List.replicate (2 ^ 31) 97))
        (fun _ => Or.inl rfl) with
    ⟨n, hEnds, -⟩
  have hLength := length_readSymlink hEnds
  rw [List.length_replicate] at hLength
  exact Nat.lt_irrefl _ hLength

end Growing

end Cosmos
