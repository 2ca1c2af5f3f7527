import LibCosmos.Core.Types
import LibCosmos.Foundation.Machine
import LibCosmos.Foundation.Numerals
import LibCosmos.Foundation.Pieces
import Mathlib.Data.List.TakeWhile

/-
  The messages of exceptions
  (`include/error/CosmosError.hxx`,
  `src/error/CosmosError.cxx` and the derived types).

  Main declarations:
    * `CosmosError.what`, `CosmosError.shortWhat`,
      `CosmosError.setMessage`
    * `ApiError`, `FileError`, `ResolveError`
    * `CosmosError.Session`, `CosmosError.Right`
    * `CosmosError.right_along_iff`
-/

namespace Cosmos

open Numerals Pieces

------------------------------------------------------------
-- Errors
------------------------------------------------------------

/- `std::source_location`; the names are C strings. -/
structure SourceLocation where
  fileName : Str
  line : UInt32
  functionName : Str
  fileName_free : 0 ∉ fileName
  functionName_free : 0 ∉ functionName

/-
  `details` is what the `generateMsg` of the type appends to
  the message. The label of a type is a literal.
-/
structure CosmosError where
  mErrorClass : Str
  mMsg : Str
  mMsgGenerated : Bool := false
  mSrcLoc : SourceLocation
  details : Str := []
  errorClass_free : 0 ∉ mErrorClass

/- An `int` as text. -/
def decimal (n : Int32) : Str :=
  (if n < 0 then [45] else []) ++
    digitText 10 false n.toInt.natAbs

/- `strerror_r`, which has a text or an error code. -/
abbrev StrError := Errno → Except Int32 Str

namespace ApiError

/- `ApiError::msg`. -/
def msg (strerror : StrError) (err : Errno) : Str :=
  match strerror err with
  | .ok text => text
  | .error code =>
      str "failed to format errno (error code:" ++
        decimal code ++ str ")"

/- The formatter of `Errno`. -/
def format (strerror : StrError) (err : Errno) : Str :=
  msg strerror err ++ str " (" ++ decimal err.raw ++ str ")"

/- `ApiError`, and `WouldBlock` with the current errno. -/
def new
    (strerror : StrError) (pre : Str) (err : Errno)
    (srcLoc : SourceLocation) : CosmosError where
  mErrorClass := str "ApiError"
  mMsg := if pre = [] then [] else pre ++ str ": "
  mSrcLoc := srcLoc
  details := format strerror err
  errorClass_free := by decide

end ApiError

/- `RangeError`, which has no errno. -/
def RangeError.new
    (strerror : StrError) (operation : Str)
    (srcLoc : SourceLocation) : CosmosError :=
  ApiError.new strerror operation .noError srcLoc

/- `FileError` with the current errno. -/
def FileError.new
    (strerror : StrError) (path operation : Str)
    (err : Errno) (srcLoc : SourceLocation) : CosmosError :=
  { ApiError.new strerror [] err srcLoc with
    mErrorClass := str "FileError"
    details :=
      path ++ str ": " ++ operation ++ str ": " ++
        ApiError.format strerror err
    errorClass_free := by decide }

/- The other types have a label and a text. -/
def RuntimeError.new
    (msg : Str) (srcLoc : SourceLocation) : CosmosError where
  mErrorClass := str "RuntimeError"
  mMsg := msg
  mSrcLoc := srcLoc
  errorClass_free := by decide

def UsageError.new
    (msg : Str) (srcLoc : SourceLocation) : CosmosError where
  mErrorClass := str "UsageError"
  mMsg := msg
  mSrcLoc := srcLoc
  errorClass_free := by decide

def InternalError.new
    (msg : Str) (srcLoc : SourceLocation) : CosmosError where
  mErrorClass := str "InternalError"
  mMsg := msg
  mSrcLoc := srcLoc
  errorClass_free := by decide

namespace ResolveError

/- `ResolveError::Code::SYSTEM`. -/
def system : Int32 := -11

/- `resolve_code_label`. -/
def resolveCodeLabel (code : Int32) : Str :=
  if code = -9 then str "EAI_ADDRFAMILY"
  else if code = -3 then str "EAI_AGAIN"
  else if code = -1 then str "EAI_BADFLAGS"
  else if code = -4 then str "EAI_FAIL"
  else if code = -6 then str "EAI_FAMILY"
  else if code = -10 then str "EAI_MEMORY"
  else if code = -5 then str "EAI_NODATA"
  else if code = -2 then str "EAI_NONAME"
  else if code = -8 then str "EAI_SERVICE"
  else if code = -7 then str "EAI_SOCKTYPE"
  else if code = system then str "EAI_SYSTEM"
  else if code = -12 then str "EAI_OVERFLOW"
  else str "EAI_???"

/- The text of a code is that of `gai_strerror`. -/
def new
    (gaiStrerror : Int32 → Str) (strerror : StrError)
    (code : Int32) (err : Errno)
    (srcLoc : SourceLocation) : CosmosError where
  mErrorClass := str "ResolveError"
  mMsg := []
  mSrcLoc := srcLoc
  details :=
    gaiStrerror code ++ str " (" ++ resolveCodeLabel code ++
      str ")" ++
      if code = system then
        str " (errno = " ++ ApiError.format strerror err ++
          str ")"
      else []
  errorClass_free := by decide

end ResolveError

namespace CosmosError

/- What a `const char*` to the text shows. -/
def cStr (s : Str) : Str :=
  s.takeWhile (· ≠ 0)

/- What `what` puts in front of the class label. -/
def place (e : CosmosError) : Str :=
  e.mSrcLoc.fileName ++ str ":" ++
    digitText 10 false e.mSrcLoc.line.toNat ++ str " [" ++
    e.mSrcLoc.functionName ++ str "]: "

/- `CosmosError::what`; the message is a mutable member. -/
def what (e : CosmosError) : Str × CosmosError :=
  let e :=
    if e.mMsgGenerated then e
    else
      { e with
        mMsg :=
          e.place ++ e.mErrorClass ++ str ": " ++ e.mMsg ++
            e.details
        mMsgGenerated := true }
  (cStr e.mMsg, e)

/- Without a match `npos` wraps around. -/
def shortStart (errorClass what : Str) : Nat :=
  match firstIndex errorClass what with
  | some found => found + errorClass.length + 2
  | none => errorClass.length + 1

/-
  `CosmosError::shortWhat`, without a result if `substr`
  throws.
-/
def shortWhat (e : CosmosError) :
    Option Str × CosmosError :=
  let (what, e) := e.what
  let start := shortStart e.mErrorClass what
  (if start ≤ what.length then some (what.drop start)
    else none, e)

/- `CosmosError::setMessage`. -/
def setMessage (e : CosmosError) (msg : Str) : CosmosError :=
  { e with
    mMsg := msg
    mMsgGenerated := true }

------------------------------------------------------------
-- Calls
------------------------------------------------------------

inductive Call where
| what
| shortWhat
| setMessage (msg : Str)
deriving DecidableEq, Repr

/-
  An object with the message that it stands for, and whether
  this goes with the place and the class label.
-/
structure Session where
  error : CosmosError
  current : Str
  labelled : Bool

/- An object that was just created. -/
def start (e : CosmosError) : Session where
  error := e
  current := e.mMsg ++ e.details
  labelled := true

def Session.step (s : Session) : Call → Session
| .what => { s with error := s.error.what.2 }
| .shortWhat => { s with error := s.error.shortWhat.2 }
| .setMessage msg =>
    { error := s.error.setMessage msg
      current := msg
      labelled := false }

def machine : Machine Session Call where
  legal := fun _ _ => True
  step := Session.step

/- What is in front of the message. -/
def heading (e : CosmosError) : Str :=
  e.place ++ e.mErrorClass ++ str ": "

/- What the call is expected to return, without throwing. -/
def Right (s : Session) (call : Call) (s' : Session) : Prop :=
  match call with
  | .what =>
      s.current <:+ s.error.what.1 ∧
        s'.error.what.1 = s.error.what.1
  | .shortWhat =>
      s.error.shortWhat.1 =
        some
          (if s.labelled then
            s.error.what.1.drop s.error.heading.length
          else s.current)
  | .setMessage _ => True

/-
  The message has no NUL character if `what` is called. If
  `shortWhat` is called, then no message was set, and the
  class label is not found in front of its place.
-/
def Fit (s : Session) : Call → Prop
| .what => 0 ∉ s.current
| .shortWhat =>
    s.labelled = true ∧
      firstIndex s.error.mErrorClass
          (s.error.place ++ s.error.mErrorClass) =
        some s.error.place.length
| .setMessage _ => True

------------------------------------------------------------
-- The Message
------------------------------------------------------------

theorem cStr_append
    {front : Str} (hFree : 0 ∉ front) (s : Str) :
    cStr (front ++ s) = front ++ cStr s := by
  unfold cStr
  rw [List.takeWhile_append_of_pos]
  intro c hMem
  have hNe : c ≠ 0 := fun hZero => hFree (hZero ▸ hMem)
  simpa using hNe

theorem cStr_eq_self {s : Str} (hFree : 0 ∉ s) :
    cStr s = s := by
  have hAll := cStr_append hFree []
  rw [List.append_nil] at hAll
  exact hAll.trans (List.append_nil s)

theorem cStr_free (s : Str) : 0 ∉ cStr s := by
  intro hMem
  have hNe := List.mem_takeWhile_imp hMem
  simp at hNe

theorem length_cStr_le (s : Str) :
    (cStr s).length ≤ s.length :=
  (List.takeWhile_prefix _).length_le

theorem place_free (e : CosmosError) : 0 ∉ e.place := by
  have hLine :
      0 ∉ digitText 10 false e.mSrcLoc.line.toNat := by
    intro hMem
    exact
      digitValue_of_mem (by decide) (by decide) false hMem
        rfl
  have hColon : 0 ∉ str ":" := by decide
  have hOpen : 0 ∉ str " [" := by decide
  have hClose : 0 ∉ str "]: " := by decide
  unfold place
  simp only [List.mem_append, not_or]
  exact
    ⟨⟨⟨⟨⟨e.mSrcLoc.fileName_free, hColon⟩, hLine⟩, hOpen⟩,
      e.mSrcLoc.functionName_free⟩, hClose⟩

theorem heading_free (e : CosmosError) : 0 ∉ e.heading := by
  have hColon : 0 ∉ str ": " := by decide
  unfold heading
  simp only [List.mem_append, not_or]
  exact ⟨⟨e.place_free, e.errorClass_free⟩, hColon⟩

namespace Session

/- The text that the object stands for. -/
def text (s : Session) : Str :=
  if s.labelled then s.error.heading ++ s.current
  else s.current

/- The member holds the text, or what it is made from. -/
structure Kept (s : Session) : Prop where
  generated :
    s.error.mMsgGenerated = true → s.error.mMsg = s.text
  pending :
    s.error.mMsgGenerated = false →
      s.labelled = true ∧
        s.current = s.error.mMsg ++ s.error.details

/- The text is assembled once. -/
theorem what_eq {s : Session} (hKept : s.Kept) :
    s.error.what =
      (cStr s.text,
        { s.error with
          mMsg := s.text
          mMsgGenerated := true }) := by
  unfold what
  cases hGenerated : s.error.mMsgGenerated with
  | true =>
      have hMsg := hKept.generated hGenerated
      rw [if_pos rfl, ← hMsg, ← hGenerated]
  | false =>
      rcases hKept.pending hGenerated with
        ⟨hLabelled, hCurrent⟩
      have hText :
          s.text =
            s.error.place ++ s.error.mErrorClass ++ str ": " ++
              s.error.mMsg ++ s.error.details := by
        unfold text
        rw [if_pos hLabelled, hCurrent, heading]
        simp only [List.append_assoc]
      rw [if_neg Bool.false_ne_true, hText]

theorem kept_start
    {e : CosmosError} (hNew : e.mMsgGenerated = false) :
    (start e).Kept where
  generated := by
    intro hGenerated
    exact absurd (hGenerated.symm.trans hNew) nofun
  pending := fun _ => ⟨rfl, rfl⟩

/- The object after `what` stands for the same text. -/
theorem kept_what {s : Session} (hKept : s.Kept) :
    ({ s with error := s.error.what.2 } : Session).Kept := by
  rw [what_eq hKept]
  exact
    { generated := fun _ => rfl
      pending := nofun }

theorem kept_step
    {s : Session} (hKept : s.Kept) (call : Call) :
    (s.step call).Kept := by
  cases call with
  | what => exact kept_what hKept
  | shortWhat => exact kept_what hKept
  | setMessage msg =>
      exact
        { generated := fun _ => rfl
          pending := nofun }

/- All calls return what the text says. -/
theorem what_step
    {s : Session} (hKept : s.Kept) :
    (s.step .what).error.what.1 = s.error.what.1 := by
  have hAfter := what_eq (kept_what hKept)
  change (s.error.what.2).what.1 = s.error.what.1
  rw [hAfter, what_eq hKept]
  rfl

end Session

------------------------------------------------------------
-- Right Calls
------------------------------------------------------------

theorem right_what_iff
    {s : Session} (hKept : s.Kept) :
    Right s .what (s.step .what) ↔ Fit s .what := by
  have hAgain := Session.what_step hKept
  unfold Right Fit
  rw [hAgain, Session.what_eq hKept]
  constructor
  · rintro ⟨hEnds, -⟩ hMem
    exact cStr_free s.text (hEnds.subset hMem)
  · intro hFree
    refine ⟨?_, rfl⟩
    unfold Session.text
    cases s.labelled with
    | true =>
        rw [if_pos rfl, cStr_append s.error.heading_free,
          cStr_eq_self hFree]
        exact List.suffix_append _ _
    | false =>
        rw [if_neg Bool.false_ne_true, cStr_eq_self hFree]

/- The label is found at its place or in front of it. -/
theorem firstIndex_labelled
    (e : CosmosError) (s : Str) :
    ∃ found,
      found ≤ e.place.length ∧
        firstIndex e.mErrorClass
            (e.place ++ e.mErrorClass) = some found ∧
        firstIndex e.mErrorClass (e.heading ++ s) =
          some found := by
  cases hFound :
      firstIndex e.mErrorClass
        (e.place ++ e.mErrorClass) with
  | none =>
      refine
        absurd ?_ (not_infix_of_firstIndex_eq_none hFound)
      exact (List.suffix_append _ _).isInfix
  | some found =>
      have hRoom := add_le_of_firstIndex hFound
      rw [List.length_append] at hRoom
      refine ⟨found, by omega, rfl, ?_⟩
      have hMore := firstIndex_append hFound (str ": " ++ s)
      unfold heading
      rw [List.append_assoc]
      exact hMore

theorem length_heading (e : CosmosError) :
    e.heading.length =
      e.place.length + e.mErrorClass.length + 2 := by
  have hTwo : (str ": ").length = 2 := rfl
  unfold heading
  rw [List.length_append, List.length_append, hTwo]

theorem shortStart_pos (errorClass what : Str) :
    0 < shortStart errorClass what := by
  unfold shortStart
  cases firstIndex errorClass what with
  | none => exact Nat.succ_pos _
  | some found => exact Nat.succ_pos _

theorem right_shortWhat_iff
    {s : Session} (hKept : s.Kept) :
    Right s .shortWhat (s.step .shortWhat) ↔
      Fit s .shortWhat := by
  have hHeading := length_heading s.error
  unfold Right Fit shortWhat
  rw [Session.what_eq hKept]
  by_cases hLabelled : s.labelled = true
  · have hText :
        cStr s.text = s.error.heading ++ cStr s.current := by
      unfold Session.text
      rw [if_pos hLabelled,
        cStr_append s.error.heading_free]
    rcases firstIndex_labelled s.error (cStr s.current) with
      ⟨found, hLe, hFound, hWhole⟩
    have hStart :
        shortStart s.error.mErrorClass
            (s.error.heading ++ cStr s.current) =
          found + s.error.mErrorClass.length + 2 := by
      unfold shortStart
      rw [hWhole]
    have hRoom :
        found + s.error.mErrorClass.length + 2 ≤
          (s.error.heading ++ cStr s.current).length := by
      rw [List.length_append]
      omega
    simp only [hText, hStart, if_pos hRoom, hFound,
      hLabelled, if_true, true_and]
    constructor
    · intro hEq
      have hLengths :=
        congrArg List.length (Option.some.inj hEq)
      rw [List.length_drop, List.length_drop] at hLengths
      rw [List.length_append] at hLengths hRoom
      have hSame : found = s.error.place.length := by omega
      exact congrArg some hSame
    · intro hSame
      rw [Option.some.inj hSame, hHeading]
  · have hText : cStr s.text = cStr s.current := by
      unfold Session.text
      rw [if_neg hLabelled]
    have hLength := length_cStr_le s.current
    have hPos :=
      shortStart_pos s.error.mErrorClass (cStr s.current)
    simp only [hText, hLabelled, Bool.false_eq_true,
      if_false, false_and, iff_false]
    intro hEq
    by_cases hRoom :
        shortStart s.error.mErrorClass (cStr s.current) ≤
          (cStr s.current).length
    · rw [if_pos hRoom] at hEq
      have hLengths :=
        congrArg List.length (Option.some.inj hEq)
      rw [List.length_drop] at hLengths
      omega
    · rw [if_neg hRoom] at hEq
      cases hEq

/-
  In a run of calls on a new object all calls return what is
  expected exactly as long as no call meets a message that
  is not fit for it.
-/
theorem right_along_iff
    (e : CosmosError) (hNew : e.mMsgGenerated = false)
    (calls : List Call) :
    machine.Along Right (start e) calls ↔
      machine.Along (fun s call _ => Fit s call) (start e)
        calls := by
  have hIff : ∀ s call, Session.Kept s →
      (Right s call (machine.step s call) ↔ Fit s call) := by
    intro s call hKept
    cases call with
    | what => exact right_what_iff hKept
    | shortWhat => exact right_shortWhat_iff hKept
    | setMessage msg => exact Iff.rfl
  refine
    Machine.along_iff_of_invariant Session.Kept ?_ ?_ calls
      (start e) (Session.kept_start hNew)
      (Machine.legal_of_forall (fun _ _ => trivial) calls
        (start e))
  · intro s call hKept _ hFit
    exact
      ⟨Session.kept_step hKept call,
        (hIff s call hKept).mpr hFit⟩
  · intro s call hKept _ hNot hRight
    exact hNot ((hIff s call hKept).mp hRight)

/- The types of the library start without a message. -/
theorem mMsgGenerated_new
    (strerror : StrError) (gaiStrerror : Int32 → Str)
    (srcLoc : SourceLocation) (text path : Str)
    (err : Errno) (code : Int32) :
    ∀ e ∈
      [ApiError.new strerror text err srcLoc,
        RangeError.new strerror text srcLoc,
        FileError.new strerror path text err srcLoc,
        RuntimeError.new text srcLoc,
        UsageError.new text srcLoc,
        InternalError.new text srcLoc,
        ResolveError.new gaiStrerror strerror code err
          srcLoc],
      e.mMsgGenerated = false := by
  simp [ApiError.new, RangeError.new, FileError.new,
    RuntimeError.new, UsageError.new, InternalError.new,
    ResolveError.new]

/- Thrown in a function of `File.cxx`. -/
def openLocation : SourceLocation where
  fileName := str "src/fs/File.cxx"
  line := 37
  functionName := str "void cosmos::File::open()"
  fileName_free := by decide
  functionName_free := by decide

def noEntryText : StrError := fun _ =>
  .ok (str "No such file or directory")

/- An error whose message is asked for, and then replaced. -/
theorem right_along_open :
    machine.Along Right
      (start
        (FileError.new noEntryText (str "/etc/fsta")
          (str "open") .noEntry openLocation))
      [.shortWhat, .what, .setMessage (str "gone"),
        .what] := by
  refine
    (right_along_iff
      (FileError.new noEntryText (str "/etc/fsta")
        (str "open") .noEntry openLocation) rfl
      [.shortWhat, .what, .setMessage (str "gone"),
        .what]).mpr ?_
  have hText :
      0 ∉ (start
        (FileError.new noEntryText (str "/etc/fsta")
          (str "open") .noEntry openLocation)).current := by
    decide
  have hGone : 0 ∉ str "gone" := by decide
  exact
    ⟨⟨rfl, by decide⟩, hText, trivial, hGone, trivial⟩

/- The same error from a file with the name of the class. -/
def classLocation : SourceLocation where
  fileName := str "src/error/FileError.cxx"
  line := 12
  functionName := str "void test()"
  fileName_free := by decide
  functionName_free := by decide

/-
  The name of the class is found in the file name, and a
  message that was set first has none at all.
-/
theorem not_right_along_file :
    (FileError.new noEntryText (str "/etc/fsta")
          (str "open") .noEntry classLocation).shortWhat.1 =
        some
          (str
            ("xx:12 [void test()]: FileError: /etc/fsta: " ++
              "open: No such file or directory (2)")) ∧
      ((RuntimeError.new [] classLocation).setMessage
          (str "gone")).shortWhat.1 = none ∧
      ¬ machine.Along Right
        (start
          (FileError.new noEntryText (str "/etc/fsta")
            (str "open") .noEntry classLocation))
        [.shortWhat] ∧
      ¬ machine.Along Right
        (start (RuntimeError.new [] classLocation))
        [.setMessage (str "gone"), .shortWhat] := by
  have hWrong :
      (FileError.new noEntryText (str "/etc/fsta")
          (str "open") .noEntry classLocation).shortWhat.1 =
        some
          (str
            ("xx:12 [void test()]: FileError: /etc/fsta: " ++
              "open: No such file or directory (2)")) := by
    decide
  have hThrows :
      ((RuntimeError.new [] classLocation).setMessage
        (str "gone")).shortWhat.1 = none := by
    decide
  refine ⟨hWrong, hThrows, ?_, ?_⟩
  · rintro ⟨hRight, -⟩
    exact absurd (hWrong.symm.trans hRight) (by decide)
  · rintro ⟨-, hRight, -⟩
    exact absurd (hThrows.symm.trans hRight) nofun

end CosmosError

end Cosmos
