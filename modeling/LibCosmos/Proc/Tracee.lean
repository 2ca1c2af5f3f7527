import LibCosmos.Proc.Ptrace

/-
  Requests to a traced process that return a value
  (`include/proc/Tracee.hxx`, `src/proc/Tracee.cxx`).

  A wrapper that reads the value of an empty optional has no
  result at all.

  Main declarations:
    * `Tracee.Kernel`, what the kernel knows of the tracee
    * `Tracee.peekData`, `Tracee.peekUser`,
      `Tracee.getSeccompFilter`, `Tracee.getSyscallInfo`,
      `Tracee.peekSigInfo`
    * `Tracee.conform_iff`
    * `Tracee.fetched_iff`
-/

namespace Cosmos

open Ptrace

namespace Tracee

------------------------------------------------------------
-- The Kernel
------------------------------------------------------------

structure SockFilter where
  code : UInt16
  jt : UInt8
  jf : UInt8
  k : UInt32
deriving DecidableEq, Repr, Inhabited

/- The vector of the caller, and its length as a `short`. -/
structure SockFprog where
  len : UInt16
  filter : List SockFilter
deriving DecidableEq, Repr

/- The 16 bytes of the structure are two instructions. -/
def SockFprog.room : Nat := 2

/- `ptrace::PeekSigInfo`. -/
structure PeekSigInfo where
  off : UInt64
  shared : Bool
  nr : Int32
deriving DecidableEq, Repr

/-
  What the kernel knows about a stopped tracee. The numbers
  are of type `long`.
-/
structure Kernel (Info : Type) where
  peekData : UInt64 → Sys Int
  peekUser : UInt64 → Sys Int
  filters : List (List SockFilter)
  syscallInfo : Sys (List Byte)
  queue : (shared : Bool) → List Info

/- Elements that are written over the start of a buffer. -/
def overwrite {α : Type} (new old : List α) : List α :=
  new.take old.length ++ old.drop new.length

/- `std::vector::resize`. -/
def resize
    {α : Type} [Inhabited α] (xs : List α) (n : Nat) :
    List α :=
  xs.take n ++ List.replicate (n - xs.length) default

namespace Kernel

variable {Info : Type} (kernel : Kernel Info)

/-
  The length of a filter program, and what is written to the
  address in `data`, if there is one. The kernel takes it for
  the address of an array and does not look at what is there:
  the whole program goes over the structure and the memory
  behind it.
-/
def getFilter
    (index : UInt64) (data : Option SockFprog) :
    Sys Int × List SockFilter :=
  match kernel.filters[index.toNat]? with
  | none => (.error .noEntry, [])
  | some program =>
      (.ok program.length, if data.isSome then program else [])

/- As much of the record as fits, and its whole size. -/
def getSyscallInfo (size : Nat) : Sys Int × List Byte :=
  match kernel.syscallInfo with
  | .error e => (.error e, [])
  | .ok bytes => (.ok bytes.length, bytes.take size)

/- The pending signals that the settings select. -/
def selected (settings : PeekSigInfo) : List Info :=
  ((kernel.queue settings.shared).drop
    settings.off.toNat).take settings.nr.toInt.toNat

def peekSigInfo
    (settings : PeekSigInfo) (buffer : List Info) :
    Sys Int × List Info :=
  if settings.nr < 0 then (.error .invalidArg, buffer)
  else
    (.ok (kernel.selected settings).length,
      overwrite (kernel.selected settings) buffer)

end Kernel

------------------------------------------------------------
-- Wrappers
------------------------------------------------------------

/- A computation that can throw or have no result. -/
abbrev Access : Type → Type := ExceptT Exn Option

/- The value of an optional, which must not be empty. -/
def deref {α : Type} : Except Exn (Option α) → Access α
| .error e => ExceptT.mk (some (.error e))
| .ok none => ExceptT.mk none
| .ok (some a) => ExceptT.mk (some (.ok a))

section Wrappers

variable {Info : Type} (kernel : Kernel Info)
variable (pid : Int32) (errno : Errno)

/- `Tracee::request` where the result is dereferenced. -/
def request (req : Request) (answer : Sys Int) : Access Int :=
  deref (trace req pid errno answer)

def peekData (addr : UInt64) : Access Int :=
  request pid errno .peekData (kernel.peekData addr)

def peekUser (offset : UInt64) : Access Int :=
  request pid errno .peekUser (kernel.peekUser offset)

/- The first pass of it makes room in an empty vector. -/
def sizeInstructions
    (instructions : List SockFilter) (progIndex : UInt64) :
    Access (List SockFilter) :=
  if instructions = [] then do
    let numProgs ←
      request pid errno .seccompGetFilter
        (kernel.getFilter progIndex none).1
    pure (resize instructions numProgs.toNat)
  else
    pure instructions

def sockFprog (instructions : List SockFilter) : SockFprog where
  len := UInt16.ofNat instructions.length
  filter := instructions

/-
  `Tracee::getSeccompFilter`, with the vector it leaves. The
  address of `fprog` is passed, so that the kernel writes over
  it and never to the vector.
-/
def getSeccompFilter
    (instructions : List SockFilter) (progIndex : UInt64) :
    Access (List SockFilter) := do
  let instructions ←
    sizeInstructions kernel pid errno instructions progIndex
  let fprog := sockFprog instructions
  let numProgs ←
    request pid errno .seccompGetFilter
      (kernel.getFilter progIndex (some fprog)).1
  if numProgs < 0 ∨ instructions.length ≤ numProgs.toNat then
    throw
      (.runtimeError
        (str "seccomp filter array size inconsistency"))
  else
    pure instructions

/- `sizeof(struct ptrace_syscall_info)`. -/
def syscallInfoSize : Nat := 88

def getSyscallInfo : Access (List Byte) := do
  let (answer, info) := kernel.getSyscallInfo syscallInfoSize
  let obtained ← request pid errno .getSyscallInfo answer
  if obtained < 0 ∨ syscallInfoSize < obtained.toNat then
    throw
      (.runtimeError
        (str "excess SYSCALL_INFO data, truncation occurred!"))
  else
    pure info

/- A negative amount is more than a vector can hold. -/
def peekSigInfo
    [Inhabited Info] (settings : PeekSigInfo) :
    Access (List Info) :=
  if settings.nr < 0 then
    throw (.stdException (str "vector::_M_default_append"))
  else do
    let ret := resize [] settings.nr.toInt.toNat
    let (answer, ret) := kernel.peekSigInfo settings ret
    let numEntries ←
      request pid errno .peekSigInfo answer
    pure (resize ret numEntries.toNat)

end Wrappers

------------------------------------------------------------
-- Values of Requests
------------------------------------------------------------

/- Calls of the wrappers that dereference a result. -/
inductive Call where
| peekData (addr : UInt64)
| peekUser (offset : UInt64)
| getSeccompFilter
    (instructions : List SockFilter) (progIndex : UInt64)
| getSyscallInfo
| peekSigInfo (settings : PeekSigInfo)
deriving DecidableEq, Repr

namespace Call

def request : Call → Request
| peekData _ => .peekData
| peekUser _ => .peekUser
| getSeccompFilter _ _ => .seccompGetFilter
| getSyscallInfo => .getSyscallInfo
| peekSigInfo _ => .peekSigInfo

end Call

section Calls

variable {Info : Type} [Inhabited Info]
variable (kernel : Kernel Info)
variable (pid : Int32) (errno : Errno)

/- What the system call returns. -/
def Call.answer : Call → Sys Int
| peekData addr => kernel.peekData addr
| peekUser offset => kernel.peekUser offset
| getSeccompFilter _ progIndex =>
    (kernel.getFilter progIndex none).1
| getSyscallInfo => (kernel.getSyscallInfo syscallInfoSize).1
| peekSigInfo settings => (kernel.peekSigInfo settings []).1

/- The wrapper reads the value of an empty optional. -/
def Call.Undefined : Call → Prop
| peekData addr =>
    (Tracee.peekData kernel pid errno addr).run = none
| peekUser offset =>
    (Tracee.peekUser kernel pid errno offset).run = none
| getSeccompFilter instructions progIndex =>
    (Tracee.getSeccompFilter kernel pid errno instructions
      progIndex).run = none
| getSyscallInfo =>
    (Tracee.getSyscallInfo kernel pid errno).run = none
| peekSigInfo settings =>
    (Tracee.peekSigInfo kernel pid errno settings).run = none

/-
  There is a value whenever the system call succeeds, and it
  is only read if there is one. A look at the pending
  signals shows those that are selected.
-/
structure Conform (call : Call) : Prop where
  engaged :
    ∀ ret, call.answer kernel = .ok ret →
      trace call.request pid errno (.ok ret) =
        .ok (some ret)
  defined : ¬ call.Undefined kernel pid errno
  selected :
    ∀ settings, call = .peekSigInfo settings →
      (peekSigInfo kernel pid errno settings).run =
        some (.ok (kernel.selected settings))

end Calls

/- Successful requests that have a value return it. -/
theorem request_ok
    (pid : Int32) (errno : Errno) {req : Request} {ret : Int}
    (hValue : req.HasValue)
    (hReal : req.isPeek = true ∨ ret ≠ -1) :
    request pid errno req (.ok ret) = pure ret := by
  unfold request
  rw [(trace_ok pid errno hReal).1 hValue]
  rfl

theorem request_peek_defined
    (pid : Int32) (errno : Errno) {req : Request}
    (hPeek : req.isPeek = true) (answer : Sys Int) :
    (request pid errno req answer).run ≠ none := by
  cases answer with
  | ok ret =>
      rw [request_ok pid errno (Or.inl hPeek)
        (Or.inl hPeek)]
      exact nofun
  | error e =>
      by_cases hNone : e = .noError
      · have hValue :
            trace req pid errno (.error e) =
              .ok (some (-1)) := by
          unfold trace
          simp only [if_true]
          rw [if_pos ⟨hPeek, hNone⟩]
        unfold request
        rw [hValue]
        exact nofun
      · unfold request
        rw [trace_error req pid errno hNone]
        exact nofun

theorem natCast_ne_neg_one (n : Nat) : (n : Int) ≠ -1 := by
  omega

------------------------------------------------------------
-- Filter Programs
------------------------------------------------------------

section Filters

variable {Info : Type} {kernel : Kernel Info}
variable (pid : Int32) (errno : Errno)
variable {progIndex : UInt64}

theorem getFilter_of_some
    {program : List SockFilter}
    (hFilter :
      kernel.filters[progIndex.toNat]? = some program)
    (fprog : SockFprog) :
    (kernel.getFilter progIndex none).1 =
        .ok (program.length : Int) ∧
      kernel.getFilter progIndex (some fprog) =
        (.ok (program.length : Int), program) := by
  unfold Kernel.getFilter
  rw [hFilter]
  exact ⟨rfl, rfl⟩

/- The vector that there has to be for the program. -/
def sized
    (program instructions : List SockFilter) :
    List SockFilter :=
  if instructions = [] then resize [] program.length
  else instructions

/- An exact fit is taken for an overrun. -/
theorem getSeccompFilter_of_some
    {program : List SockFilter}
    (hFilter :
      kernel.filters[progIndex.toNat]? = some program)
    (instructions : List SockFilter) :
    (getSeccompFilter kernel pid errno instructions
        progIndex).run =
      if
        (sized program instructions).length ≤ program.length
      then
        some
          (.error
            (.runtimeError
              (str
                "seccomp filter array size inconsistency")))
      else
        some (.ok (sized program instructions)) := by
  have hValue : Request.HasValue .seccompGetFilter :=
    Or.inr (Or.inl rfl)
  have hAnswers := getFilter_of_some hFilter
  have hRequest :=
    request_ok pid errno hValue
      (Or.inr (natCast_ne_neg_one program.length))
  have hSized :
      sizeInstructions kernel pid errno instructions
          progIndex =
        pure (sized program instructions) := by
    unfold sizeInstructions sized
    by_cases hEmpty : instructions = []
    · rw [if_pos hEmpty, if_pos hEmpty,
        (hAnswers ⟨0, []⟩).1, hRequest, pure_bind, hEmpty,
        Int.toNat_natCast]
    · rw [if_neg hEmpty, if_neg hEmpty]
  unfold getSeccompFilter
  rw [hSized, pure_bind]
  simp only [(hAnswers _).2, hRequest, pure_bind,
    Int.toNat_natCast]
  have hNonneg : ¬ (program.length : Int) < 0 := by omega
  by_cases hFull :
      (sized program instructions).length ≤ program.length
  · rw [if_pos (Or.inr hFull), if_pos hFull]
    rfl
  · rw [if_neg (not_or.mpr ⟨hNonneg, hFull⟩), if_neg hFull]
    rfl

theorem getSeccompFilter_of_none
    (hFilter : kernel.filters[progIndex.toNat]? = none)
    (instructions : List SockFilter) :
    (getSeccompFilter kernel pid errno instructions
        progIndex).run =
      some
        (.error
          (.apiError .noEntry
            (errorText .seccompGetFilter pid))) := by
  have hAnswer : ∀ fprog,
      (kernel.getFilter progIndex fprog).1 =
        .error .noEntry := by
    intro fprog
    unfold Kernel.getFilter
    rw [hFilter]
  have hRequest :
      request pid errno .seccompGetFilter
          (.error .noEntry) =
        ExceptT.mk
          (some
            (.error
              (.apiError .noEntry
                (errorText .seccompGetFilter pid)))) := by
    unfold request
    rw [trace_error _ pid errno (by decide)]
    rfl
  unfold getSeccompFilter sizeInstructions
  by_cases hEmpty : instructions = []
  · rw [if_pos hEmpty, hAnswer, hRequest]
    rfl
  · rw [if_neg hEmpty, pure_bind]
    simp only [hAnswer, hRequest]
    rfl

end Filters

------------------------------------------------------------
-- Conforming Calls
------------------------------------------------------------

section Calls

variable {Info : Type} [Inhabited Info]
variable (kernel : Kernel Info)
variable (pid : Int32) (errno : Errno)

omit [Inhabited Info] in
theorem getSyscallInfo_defined :
    (getSyscallInfo kernel pid errno).run ≠ none := by
  unfold getSyscallInfo Kernel.getSyscallInfo
  cases kernel.syscallInfo with
  | error e =>
      by_cases hNone : e = .noError
      · subst hNone
        exact nofun
      · unfold request
        simp only [trace_error _ pid errno hNone]
        exact nofun
  | ok bytes =>
      have hValue : Request.HasValue .getSyscallInfo :=
        Or.inr (Or.inr rfl)
      have hRequest :=
        request_ok pid errno hValue
          (Or.inr (natCast_ne_neg_one bytes.length))
      simp only [hRequest, pure_bind]
      split_ifs
      · exact nofun
      · exact nofun

/- The value of this request is not handed back. -/
theorem peekSigInfo_undefined
    {settings : PeekSigInfo} (hReal : ¬ settings.nr < 0) :
    (peekSigInfo kernel pid errno settings).run = none := by
  have hNot : ¬ Request.HasValue .peekSigInfo := by
    rintro (hPeek | hFilter | hInfo)
    · cases hPeek
    · cases hFilter
    · cases hInfo
  have hTrace :=
    (trace_ok pid errno
      (Or.inr
        (natCast_ne_neg_one
          (kernel.selected settings).length))).2 hNot
  unfold peekSigInfo Kernel.peekSigInfo request
  simp only [if_neg hReal, hTrace]
  rfl

omit [Inhabited Info] in
/- No call returns -1 but one that peeks at a word. -/
theorem Call.answer_real
    {call : Call} {ret : Int}
    (hAnswer : call.answer kernel = .ok ret) :
    call.request.isPeek = true ∨ ret ≠ -1 := by
  cases call with
  | peekData addr => exact Or.inl rfl
  | peekUser offset => exact Or.inl rfl
  | getSeccompFilter instructions progIndex =>
      refine Or.inr ?_
      change (kernel.getFilter progIndex none).1 = _
        at hAnswer
      cases hFilter : kernel.filters[progIndex.toNat]? with
      | none =>
          unfold Kernel.getFilter at hAnswer
          rw [hFilter] at hAnswer
          cases hAnswer
      | some program =>
          rw [(getFilter_of_some hFilter ⟨0, []⟩).1]
            at hAnswer
          cases hAnswer
          exact natCast_ne_neg_one program.length
  | getSyscallInfo =>
      refine Or.inr ?_
      change (kernel.getSyscallInfo syscallInfoSize).1 = _
        at hAnswer
      unfold Kernel.getSyscallInfo at hAnswer
      cases hInfo : kernel.syscallInfo with
      | error e =>
          rw [hInfo] at hAnswer
          cases hAnswer
      | ok bytes =>
          rw [hInfo] at hAnswer
          cases hAnswer
          exact natCast_ne_neg_one bytes.length
  | peekSigInfo settings =>
      refine Or.inr ?_
      change (kernel.peekSigInfo settings []).1 = _ at hAnswer
      unfold Kernel.peekSigInfo at hAnswer
      by_cases hNegative : settings.nr < 0
      · rw [if_pos hNegative] at hAnswer
        cases hAnswer
      · rw [if_neg hNegative] at hAnswer
        cases hAnswer
        exact natCast_ne_neg_one _

theorem Call.hasValue_iff (call : Call) :
    call.request.HasValue ↔
      ∀ settings, call ≠ .peekSigInfo settings := by
  cases call with
  | peekData addr =>
      exact ⟨fun _ _ => nofun, fun _ => Or.inl rfl⟩
  | peekUser offset =>
      exact ⟨fun _ _ => nofun, fun _ => Or.inl rfl⟩
  | getSeccompFilter instructions progIndex =>
      exact ⟨fun _ _ => nofun, fun _ => Or.inr (Or.inl rfl)⟩
  | getSyscallInfo =>
      exact ⟨fun _ _ => nofun, fun _ => Or.inr (Or.inr rfl)⟩
  | peekSigInfo settings =>
      constructor
      · rintro (hPeek | hFilter | hInfo)
        · cases hPeek
        · cases hFilter
        · cases hInfo
      · intro hOther
        exact absurd rfl (hOther settings)

/- A wrapper whose request has a value reads a value. -/
theorem Call.not_undefined
    {call : Call} (hValue : call.request.HasValue) :
    ¬ call.Undefined kernel pid errno := by
  cases call with
  | peekData addr => exact request_peek_defined pid errno rfl _
  | peekUser offset =>
      exact request_peek_defined pid errno rfl _
  | getSeccompFilter instructions progIndex =>
      change
        (Tracee.getSeccompFilter kernel pid errno
          instructions progIndex).run ≠ none
      cases hFilter : kernel.filters[progIndex.toNat]? with
      | none =>
          rw [getSeccompFilter_of_none pid errno hFilter]
          exact nofun
      | some program =>
          rw [getSeccompFilter_of_some pid errno hFilter]
          split_ifs
          · exact nofun
          · exact nofun
  | getSyscallInfo =>
      exact getSyscallInfo_defined kernel pid errno
  | peekSigInfo settings =>
      exact
        absurd rfl
          ((Call.hasValue_iff _).mp hValue settings)

/- All wrappers conform but the one for pending signals. -/
theorem conform_iff (call : Call) :
    Conform kernel pid errno call ↔
      ∀ settings, call ≠ .peekSigInfo settings := by
  constructor
  · rintro hConform settings rfl
    have hResult := hConform.selected settings rfl
    by_cases hNegative : settings.nr < 0
    · unfold peekSigInfo at hResult
      rw [if_pos hNegative] at hResult
      cases hResult
    · rw [peekSigInfo_undefined kernel pid errno hNegative]
        at hResult
      cases hResult
  · intro hOther
    have hValue := (Call.hasValue_iff call).mpr hOther
    exact
      { engaged := fun ret hAnswer =>
          (trace_ok pid errno
            (Call.answer_real kernel hAnswer)).1 hValue
        defined := Call.not_undefined kernel pid errno hValue
        selected := fun settings hCall =>
          absurd hCall (hOther settings) }

end Calls

/- A tracee with a pending signal and a filter program. -/
def oneKernel : Kernel Nat where
  peekData := fun _ => .ok (-1)
  peekUser := fun _ => .error .invalidArg
  filters := [[⟨6, 0, 0, 0x7fff0000⟩]]
  syscallInfo := .ok (List.replicate 88 0)
  queue := fun shared => if shared then [10] else []

/- The pending signal is not found. -/
theorem not_conform_peekSigInfo :
    ¬ (∀ call, Conform oneKernel 100 .noError call) ∧
      oneKernel.selected ⟨0, true, 8⟩ = [10] ∧
      (peekSigInfo oneKernel 100 .noError
        ⟨0, true, 8⟩).run = none := by
  have hNone :
      (peekSigInfo oneKernel 100 .noError
        ⟨0, true, 8⟩).run = none :=
    rfl
  refine ⟨fun hAll => ?_, rfl, hNone⟩
  exact (hAll (.peekSigInfo ⟨0, true, 8⟩)).defined hNone

------------------------------------------------------------
-- Fetched Programs
------------------------------------------------------------

section Filters

variable {Info : Type} (kernel : Kernel Info)
variable (pid : Int32) (errno : Errno)

/-
  The call ends in this way whatever the layout of its stack
  frame: what the kernel writes at `&fprog` does not go beyond
  the structure and `slack` more instructions' worth of memory
  that is not needed any more.
-/
structure Ends
    (slack : Nat)
    (progIndex : UInt64) (instructions : List SockFilter)
    (result : Except Exn (List SockFilter)) : Prop where
  returns :
    (getSeccompFilter kernel pid errno instructions
        progIndex).run =
      some result
  intact :
    ∀ program,
      kernel.filters[progIndex.toNat]? = some program →
      (kernel.getFilter progIndex
          (some
            (sockFprog (sized program instructions)))).2.length ≤
        SockFprog.room + slack

/-
  The program is fetched into an empty vector or into one
  with room for it. Otherwise there is an exception.
-/
structure Fetched
    (slack : Nat) (progIndex : UInt64)
    (program instructions : List SockFilter) : Prop where
  empty :
    instructions = [] →
      Ends kernel pid errno slack progIndex instructions
        (.ok program)
  large :
    instructions ≠ [] →
      program.length ≤ instructions.length →
      ∃ after,
        Ends kernel pid errno slack progIndex instructions
            (.ok after) ∧
          after.take program.length = program
  small :
    instructions ≠ [] →
      instructions.length < program.length →
      ∃ e,
        Ends kernel pid errno slack progIndex instructions
          (.error e)

variable {kernel}

/- The frame survives if the program is short enough. -/
theorem ends_iff
    {progIndex : UInt64} {program : List SockFilter}
    (hFilter :
      kernel.filters[progIndex.toNat]? = some program)
    (slack : Nat) (instructions : List SockFilter)
    (result : Except Exn (List SockFilter)) :
    Ends kernel pid errno slack progIndex instructions
        result ↔
      (getSeccompFilter kernel pid errno instructions
          progIndex).run =
        some result ∧
        program.length ≤ SockFprog.room + slack := by
  have hWritten := getFilter_of_some hFilter
  constructor
  · intro hEnds
    have hIntact := hEnds.intact program hFilter
    rw [(hWritten _).2] at hIntact
    exact ⟨hEnds.returns, hIntact⟩
  · rintro ⟨hReturns, hIntact⟩
    refine { returns := hReturns, intact := ?_ }
    intro other hOther
    rw [hFilter] at hOther
    cases hOther
    rw [(hWritten _).2]
    exact hIntact

/-
  A vector that is too small is treated right, and one that is
  larger and has the program already, as long as the stack
  frame survives the call. No other one is.
-/
theorem fetched_iff
    {progIndex : UInt64} {program : List SockFilter}
    (hFilter :
      kernel.filters[progIndex.toNat]? = some program)
    (slack : Nat) (instructions : List SockFilter) :
    Fetched kernel pid errno slack progIndex program
        instructions ↔
      instructions ≠ [] ∧
        (instructions.length < program.length ∨
          program.length < instructions.length ∧
            instructions.take program.length = program) ∧
        program.length ≤ SockFprog.room + slack := by
  have hResult :=
    getSeccompFilter_of_some pid errno hFilter instructions
  have hFits : instructions ≠ [] →
      sized program instructions = instructions :=
    fun hSome => if_neg hSome
  have hEnds :=
    ends_iff pid errno hFilter slack instructions
  constructor
  · intro hFetched
    have hSome : instructions ≠ [] := by
      intro hEmpty
      have hLength :
          (sized program instructions).length ≤
            program.length := by
        unfold sized resize
        rw [if_pos hEmpty]
        simp
      have hReturns := (hFetched.empty hEmpty).returns
      rw [hResult, if_pos hLength] at hReturns
      cases hReturns
    refine ⟨hSome, ?_⟩
    rcases Nat.lt_or_ge instructions.length program.length
      with hLess | hLe
    · rcases hFetched.small hSome hLess with ⟨e, hThrows⟩
      exact ⟨Or.inl hLess, ((hEnds _).mp hThrows).2⟩
    · rcases hFetched.large hSome hLe with
        ⟨after, hReturns, hTake⟩
      rcases (hEnds _).mp hReturns with ⟨hRun, hIntact⟩
      rw [hResult, hFits hSome] at hRun
      by_cases hExact : instructions.length ≤ program.length
      · rw [if_pos hExact] at hRun
        cases hRun
      · rw [if_neg hExact] at hRun
        cases hRun
        exact
          ⟨Or.inr ⟨Nat.lt_of_not_le hExact, hTake⟩, hIntact⟩
  · rintro ⟨hSome, hCase, hIntact⟩
    rw [hFits hSome] at hResult
    refine
      { empty := fun hEmpty => absurd hEmpty hSome
        large := fun _ hLe => ?_
        small := fun _ hLess => ?_ }
    · rcases hCase with hLess | ⟨hMore, hTake⟩
      · omega
      · rw [if_neg hMore.not_ge] at hResult
        exact
          ⟨_, (hEnds _).mpr ⟨hResult, hIntact⟩, hTake⟩
    · rw [if_pos hLess.le] at hResult
      exact ⟨_, (hEnds _).mpr ⟨hResult, hIntact⟩⟩

end Filters

/- A tracee with a filter program of two instructions. -/
def twoKernel : Kernel Nat :=
  { oneKernel with
    filters := [[⟨32, 0, 0, 0⟩, ⟨6, 0, 0, 0x7fff0000⟩]] }

/- There is less room than needed. -/
theorem fetched_one :
    Fetched twoKernel 100 .noError 0 0
      [⟨32, 0, 0, 0⟩, ⟨6, 0, 0, 0x7fff0000⟩] [default] := by
  have hFilter :
      twoKernel.filters[(0 : UInt64).toNat]? =
        some [⟨32, 0, 0, 0⟩, ⟨6, 0, 0, 0x7fff0000⟩] :=
    rfl
  refine
    (fetched_iff 100 .noError hFilter 0 [default]).mpr ?_
  exact ⟨nofun, Or.inl (by decide), by decide⟩

/-
  Room that the first pass makes is rejected, and a vector
  with more room is returned as it was.
-/
theorem not_fetched_empty :
    ¬ Fetched oneKernel 100 .noError 0 0
        [⟨6, 0, 0, 0x7fff0000⟩] [] ∧
      (getSeccompFilter oneKernel 100 .noError [] 0).run =
        some
          (.error
            (.runtimeError
              (str
                "seccomp filter array size inconsistency"))) ∧
      (getSeccompFilter oneKernel 100 .noError
          [default, default] 0).run =
        some (.ok [default, default]) := by
  have hThrows :
      (getSeccompFilter oneKernel 100 .noError [] 0).run =
        some
          (.error
            (.runtimeError
              (str
                "seccomp filter array size inconsistency")))
      :=
    rfl
  refine ⟨fun hFetched => ?_, hThrows, rfl⟩
  have hEnds := (hFetched.empty rfl).returns
  rw [hThrows] at hEnds
  cases hEnds

end Tracee

end Cosmos
