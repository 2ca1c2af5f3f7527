import LibCosmos.IO.StreamIO
import Mathlib.Logic.Function.Basic

/-
  Reading into a buffer and into a vector of regions until
  they are full (`src/io/StreamIO.cxx`,
  `include/io/StreamIO.hxx`).

  A file is an endless supply of bytes with a position; how
  many of them a call gets is up to the kernel, and a result
  of 0 means that there are no more.

  Main declarations:
    * `StreamIO.read`, `StreamIO.readAll`
    * `StreamIO.readVector`, `StreamIO.readAllVector`
    * `StreamIO.flatTransfer`, what `readAll` amounts to
    * `StreamIO.Smooth`
    * `StreamIO.readAllVector_ends_iff`
-/

namespace Cosmos

namespace StreamIO

------------------------------------------------------------
-- System Calls
------------------------------------------------------------

/-
  The answers to the coming system calls, the position in
  the file and the memory.
-/
structure Source where
  responses : List (Sys UInt64)
  pos : Nat
  memory : Memory

section Reading

variable (stream : Nat → Byte)

/- Bytes of the file from `pos` on come to these addresses. -/
def fill : List UInt64 → Nat → Memory → Memory
| [], _, memory => memory
| addr :: addrs, pos, memory =>
    fill addrs (pos + 1)
      (Function.update memory addr (stream pos))

theorem fill_append
    (before after : List UInt64) (pos : Nat)
    (memory : Memory) :
    fill stream (before ++ after) pos memory =
      fill stream after (pos + before.length)
        (fill stream before pos memory) := by
  induction before generalizing pos memory with
  | nil => rfl
  | cons addr before ih =>
      simp only [List.cons_append, fill, ih,
        List.length_cons]
      congr 1
      omega

/- Two reads in a row are one read of both. -/
theorem fill_take_add
    {addrs : List UInt64} {n : Nat} (m pos : Nat)
    (hLe : n ≤ addrs.length) (memory : Memory) :
    fill stream ((addrs.drop n).take m) (pos + n)
        (fill stream (addrs.take n) pos memory) =
      fill stream (addrs.take (n + m)) pos memory := by
  rw [List.take_add, fill_append, List.length_take,
    Nat.min_eq_left hLe]

variable (autoRestart : Bool)

/- The `while (true)` around a system call that reads. -/
def readLoop
    (operation : String) (addrs : List UInt64)
    (pos : Nat) (memory : Memory) :
    List (Sys UInt64) → Outcome Stop Exn UInt64 × Source
| [] => (.halted .pending, ⟨[], pos, memory⟩)
| .ok n :: rest =>
    (.returned n,
      ⟨rest, pos + n.toNat,
        fill stream (addrs.take n.toNat) pos memory⟩)
| .error e :: rest =>
    match handleIOError autoRestart operation e with
    | .ok () => readLoop operation addrs pos memory rest
    | .error ex => (.raised ex, ⟨rest, pos, memory⟩)

def readCall
    (operation : String) (addrs : List UInt64) :
    Command Source Stop Exn UInt64 where
  run s :=
    readLoop stream autoRestart operation addrs s.pos
      s.memory s.responses

/- A call that returned used up a response. -/
theorem readLoop_shorter
    {operation : String} {addrs : List UInt64} {pos : Nat}
    {memory : Memory} {responses : List (Sys UInt64)}
    {n : UInt64} {s : Source}
    (hCall :
      readLoop stream autoRestart operation addrs pos memory
        responses = (.returned n, s)) :
    s.responses.length < responses.length := by
  induction responses with
  | nil => cases hCall
  | cons response rest ih =>
      cases response with
      | ok m =>
          cases hCall
          simp
      | error e =>
          unfold readLoop at hCall
          cases hHandle :
              handleIOError autoRestart operation e with
          | ok =>
              rw [hHandle] at hCall
              have hRest := ih hCall
              simp only [List.length_cons]
              omega
          | error ex =>
              rw [hHandle] at hCall
              cases hCall

------------------------------------------------------------
-- Flat Buffers
------------------------------------------------------------

/- `StreamIO::read(void *, size_t)`. -/
def read (buf length : UInt64) :
    Command Source Stop Exn UInt64 :=
  readCall stream autoRestart "read()"
    (IOMemoryRegion.bytes ⟨buf, length⟩)

/- `StreamIO::readAll(void *, size_t)`. -/
def readAll (buf length : UInt64) (s : Source) :
    Outcome Stop Exn Unit × Source :=
  if length = 0 then (.returned (), s)
  else
    match _hRead :
        (read stream autoRestart buf length).run s with
    | (.returned res, s') =>
        if res = 0 then
          (.raised (.runtimeError (str "unexpected EOF")), s')
        else
          readAll (buf + res) (length - res) s'
    | (.raised ex, s') => (.raised ex, s')
    | (.halted h, s') => (.halted h, s')
termination_by s.responses.length
decreasing_by
  exact readLoop_shorter stream autoRestart _hRead

------------------------------------------------------------
-- Vectors
------------------------------------------------------------

/- The kernel together with the caller's vector. -/
structure SourceStream where
  source : Source
  iovec : IOVector

/- `StreamIO::read(ReadIOVector &)`. -/
def readVector : Command SourceStream Stop Exn Bool := do
  let s ← Command.get
  let res ←
    (readCall stream autoRestart "readv()"
        s.iovec.bytes).focus
      SourceStream.source
      (fun source s => { s with source := source })
  ((IOVector.update res).relabel .halt).focus
    SourceStream.iovec (fun iovec s => { s with iovec := iovec })

theorem readVector_shorter
    {s s' : SourceStream} {done : Bool}
    (hRead :
      (readVector stream autoRestart).run s =
        (.returned done, s')) :
    s'.source.responses.length <
      s.source.responses.length := by
  simp only [readVector, Command.run_bind, Command.run_get,
    Command.run_focus] at hRead
  cases hCall :
      (readCall stream autoRestart "readv()"
        s.iovec.bytes).run s.source with
  | mk outcome source =>
      rw [hCall] at hRead
      cases outcome with
      | returned n =>
          have hSource := congrArg (fun r => r.2.source) hRead
          simp only at hSource
          rw [← hSource]
          exact readLoop_shorter stream autoRestart hCall
      | raised ex => cases hRead
      | halted h => cases hRead

/- `StreamIO::readAll(ReadIOVector &)`. -/
def readAllVector (s : SourceStream) :
    Outcome Stop Exn Unit × SourceStream :=
  match _hRead : (readVector stream autoRestart).run s with
  | (.returned true, s') => (.returned (), s')
  | (.returned false, s') => readAllVector s'
  | (.raised ex, s') => (.raised ex, s')
  | (.halted h, s') => (.halted h, s')
termination_by s.source.responses.length
decreasing_by
  exact readVector_shorter stream autoRestart _hRead

theorem readAll_eq (buf length : UInt64) (s : Source) :
    readAll stream autoRestart buf length s =
      if length = 0 then (.returned (), s)
      else
        match
            (read stream autoRestart buf length).run s with
        | (.returned res, s') =>
            if res = 0 then
              (.raised
                (.runtimeError (str "unexpected EOF")), s')
            else
              readAll stream autoRestart (buf + res)
                (length - res) s'
        | (.raised ex, s') => (.raised ex, s')
        | (.halted h, s') => (.halted h, s') := by
  rw [readAll]
  split
  · rfl
  · split <;> next hRead => rw [hRead]

theorem readAllVector_eq (s : SourceStream) :
    readAllVector stream autoRestart s =
      match (readVector stream autoRestart).run s with
      | (.returned true, s') => (.returned (), s')
      | (.returned false, s') =>
          readAllVector stream autoRestart s'
      | (.raised ex, s') => (.raised ex, s')
      | (.halted h, s') => (.halted h, s') := by
  rw [readAllVector]
  split <;> next hRead => rw [hRead]

------------------------------------------------------------
-- What the Responses Amount To
------------------------------------------------------------

/- How reading ends. -/
inductive ReadEnding where
| done
| failed (e : Errno)
| eof
| pending
deriving DecidableEq, Repr

def ReadEnding.outcome (operation : String) :
    ReadEnding → Outcome Stop Exn Unit
| .done => .returned ()
| .failed e => .raised (.apiError e (str operation))
| .eof => .raised (.runtimeError (str "unexpected EOF"))
| .pending => .halted .pending

def Ending.toRead : Ending → ReadEnding
| .done => .done
| .failed e => .failed e
| .pending => .pending

theorem Ending.toRead_ne_eof (ending : Ending) :
    ending.toRead ≠ .eof := by
  cases ending <;> simp [toRead]

theorem Ending.toRead_ne_pending
    {ending : Ending} (hEnded : ending ≠ .pending) :
    ending.toRead ≠ .pending := by
  cases ending <;> simp_all [toRead]

structure Transfer where
  moved : Nat
  ending : ReadEnding
deriving DecidableEq, Repr

/-
  The transfer of `left` bytes to a flat buffer: the end of
  the file is an error.
-/
def flatTransfer : Nat → List (Sys UInt64) → Transfer
| left, [] => ⟨0, if left = 0 then .done else .pending⟩
| left, .ok n :: rest =>
    if left = 0 then ⟨0, .done⟩
    else if n = 0 then ⟨0, .eof⟩
    else
      let t := flatTransfer (left - n.toNat) rest
      { t with moved := n.toNat + t.moved }
| left, .error e :: rest =>
    if left = 0 then ⟨0, .done⟩
    else
      match handleIOError autoRestart "" e with
      | .ok () => flatTransfer left rest
      | .error _ => ⟨0, .failed e⟩

/- No call returns more bytes than are left. -/
def Fits : Nat → List (Sys UInt64) → Prop
| _, [] => True
| left, .ok n :: rest =>
    n.toNat ≤ left ∧
      (n.toNat < left → Fits (left - n.toNat) rest)
| left, .error e :: rest =>
    handleIOError autoRestart "" e = .ok () →
      Fits left rest

/-
  The end of the file comes when no byte is left, and an
  error comes when there is one.
-/
def Smooth : Nat → List (Sys UInt64) → Prop
| _, [] => True
| left, .ok n :: rest =>
    (n = 0 → left = 0) ∧
      (n.toNat < left → Smooth (left - n.toNat) rest)
| left, .error e :: rest =>
    match handleIOError autoRestart "" e with
    | .ok () => Smooth left rest
    | .error _ => left ≠ 0

------------------------------------------------------------
-- Transfers
------------------------------------------------------------

omit stream in
theorem flatTransfer_zero (responses : List (Sys UInt64)) :
    flatTransfer autoRestart 0 responses = ⟨0, .done⟩ := by
  cases responses with
  | nil => rfl
  | cons response rest => cases response <;> rfl

omit stream in
/- More answers do not change a transfer that has ended. -/
theorem flatTransfer_append
    (responses more : List (Sys UInt64)) (left : Nat)
    (hEnded :
      (flatTransfer autoRestart left responses).ending ≠
        .pending) :
    flatTransfer autoRestart left (responses ++ more) =
      flatTransfer autoRestart left responses := by
  induction responses generalizing left with
  | nil =>
      have hLeft : left = 0 := by
        by_contra hLeft
        exact hEnded (if_neg hLeft)
      rw [hLeft, flatTransfer_zero, flatTransfer_zero]
  | cons response rest ih =>
      by_cases hLeft : left = 0
      · rw [hLeft, flatTransfer_zero, flatTransfer_zero]
      · cases response with
        | ok n =>
            by_cases hZero : n = 0
            · simp [flatTransfer, hLeft, hZero]
            · simp only [List.cons_append, flatTransfer,
                hLeft, hZero, if_false] at hEnded ⊢
              rw [ih _ hEnded]
        | error e =>
            rcases handleIOError_cases autoRestart e with
              hOk | hError
            · simp only [List.cons_append, flatTransfer,
                hLeft, if_false, hOk] at hEnded ⊢
              exact ih left hEnded
            · simp [flatTransfer, hLeft, hError]

omit stream in
theorem progress_append
    (responses more : List (Sys UInt64)) (left : Nat)
    (hEnded :
      (progress autoRestart left responses).ending ≠
        .pending) :
    (progress autoRestart left
        (responses ++ more)).ending =
      (progress autoRestart left responses).ending := by
  induction responses generalizing left with
  | nil => exact absurd rfl hEnded
  | cons response rest ih =>
      cases response with
      | ok n =>
          by_cases hAll : left ≤ n.toNat
          · simp [progress, hAll]
          · simp only [List.cons_append, progress, hAll,
              if_false] at hEnded ⊢
            exact ih _ hEnded
      | error e =>
          rcases handleIOError_cases autoRestart e with
            hOk | hError
          · simp only [List.cons_append, progress,
              hOk] at hEnded ⊢
            exact ih left hEnded
          · simp [progress, hError]

omit stream in
theorem fits_of_append
    (responses more : List (Sys UInt64)) (left : Nat)
    (hFits : Fits autoRestart left (responses ++ more)) :
    Fits autoRestart left responses := by
  induction responses generalizing left with
  | nil => trivial
  | cons response rest ih =>
      cases response with
      | ok n =>
          exact ⟨hFits.1, fun hMore => ih _ (hFits.2 hMore)⟩
      | error e => exact fun hOk => ih left (hFits hOk)

omit stream in
theorem smooth_of_append
    (responses more : List (Sys UInt64)) (left : Nat)
    (hSmooth : Smooth autoRestart left (responses ++ more)) :
    Smooth autoRestart left responses := by
  induction responses generalizing left with
  | nil => trivial
  | cons response rest ih =>
      cases response with
      | ok n =>
          exact
            ⟨hSmooth.1, fun hMore => ih _ (hSmooth.2 hMore)⟩
      | error e =>
          rcases handleIOError_cases autoRestart e with
            hOk | hError
          · simp only [List.cons_append, Smooth,
              hOk] at hSmooth ⊢
            exact ih left hSmooth
          · simp only [List.cons_append, Smooth,
              hError] at hSmooth ⊢
            exact hSmooth

omit stream in
/- On a smooth course both transfers are the same. -/
theorem flatTransfer_of_smooth
    (responses : List (Sys UInt64)) {left : Nat}
    (hLeft : 0 < left)
    (hFits : Fits autoRestart left responses)
    (hSmooth : Smooth autoRestart left responses) :
    flatTransfer autoRestart left responses =
      ⟨(progress autoRestart left responses).moved,
        (progress autoRestart left
          responses).ending.toRead⟩ := by
  induction responses generalizing left with
  | nil =>
      simp [flatTransfer, progress, Ending.toRead, hLeft.ne']
  | cons response rest ih =>
      cases response with
      | ok n =>
          rcases hFits with ⟨hLe, hRest⟩
          have hSome : n ≠ 0 := fun hZero =>
            hLeft.ne' (hSmooth.1 hZero)
          by_cases hAll : left ≤ n.toNat
          · have hNone : left - n.toNat = 0 := by omega
            simp [flatTransfer, hLeft.ne', hSome, hNone,
              flatTransfer_zero, progress_done _ hAll,
              Ending.toRead]
          · have hTail :=
              ih (by omega) (hRest (by omega))
                (hSmooth.2 (by omega))
            simp only [flatTransfer, hLeft.ne', hSome,
              if_false, hTail, progress_more _ hAll]
      | error e =>
          rcases handleIOError_cases autoRestart e with
            hOk | hError
          · simp only [Smooth, hOk] at hSmooth
            simp only [flatTransfer, progress, hLeft.ne',
              if_false, hOk]
            exact ih hLeft (hFits (hOk "")) hSmooth
          · simp [flatTransfer, progress, hLeft.ne', hError,
              Ending.toRead]

omit stream in
/- Where nothing is left an error is all that can go wrong. -/
theorem progress_zero
    (responses : List (Sys UInt64))
    (hFits : Fits autoRestart 0 responses) :
    (progress autoRestart 0 responses).moved = 0 ∧
      ((progress autoRestart 0 responses).ending = .pending ∨
        (progress autoRestart 0 responses).ending = .done ∨
        ¬ Smooth autoRestart 0 responses) ∧
      (¬ Smooth autoRestart 0 responses →
        ∃ e,
          (progress autoRestart 0 responses).ending =
            .failed e) := by
  induction responses with
  | nil => exact ⟨rfl, Or.inl rfl, fun hNot => (hNot trivial).elim⟩
  | cons response rest ih =>
      cases response with
      | ok n =>
          have hNone : n.toNat = 0 := Nat.le_zero.mp hFits.1
          rw [progress_done _ (Nat.zero_le _)]
          refine ⟨hNone, Or.inr (Or.inl rfl), ?_⟩
          intro hNot
          refine absurd ⟨fun _ => rfl, ?_⟩ hNot
          intro hMore
          exact absurd hMore (Nat.not_lt_zero _)
      | error e =>
          rcases handleIOError_cases autoRestart e with
            hOk | hError
          · simp only [progress, Smooth, hOk]
            exact ih (hFits (hOk ""))
          · simp [progress, Smooth, hError]

omit stream in
/- A course that is not smooth is the end of the file. -/
theorem flatTransfer_of_not_smooth
    (responses : List (Sys UInt64)) {left : Nat}
    (hLeft : 0 < left)
    (hNot : ¬ Smooth autoRestart left responses) :
    (flatTransfer autoRestart left responses).ending =
      .eof := by
  induction responses generalizing left with
  | nil => exact absurd trivial hNot
  | cons response rest ih =>
      cases response with
      | ok n =>
          by_cases hZero : n = 0
          · simp [flatTransfer, hLeft.ne', hZero]
          · simp only [flatTransfer, hLeft.ne', hZero,
              if_false]
            have hMore : n.toNat < left := by
              by_contra hAll
              exact
                hNot
                  ⟨fun hNone => absurd hNone hZero,
                    fun hLess => absurd hLess hAll⟩
            refine ih (by omega) ?_
            intro hRest
            exact
              hNot
                ⟨fun hNone => absurd hNone hZero,
                  fun _ => hRest⟩
      | error e =>
          rcases handleIOError_cases autoRestart e with
            hOk | hError
          · simp only [Smooth, hOk] at hNot
            simp only [flatTransfer, hLeft.ne', if_false,
              hOk]
            exact ih hLeft hNot
          · simp only [Smooth, hError] at hNot
            exact absurd hLeft.ne' hNot

omit stream in
/- The two transfers are the same if they end smoothly. -/
theorem flatTransfer_eq_progress
    (responses : List (Sys UInt64)) {left : Nat}
    (hFits : Fits autoRestart left responses)
    (hSmooth : Smooth autoRestart left responses)
    (hEnded :
      (progress autoRestart left responses).ending ≠
        .pending) :
    flatTransfer autoRestart left responses =
      ⟨(progress autoRestart left responses).moved,
        (progress autoRestart left
          responses).ending.toRead⟩ := by
  rcases Nat.eq_zero_or_pos left with rfl | hLeft
  · rcases progress_zero autoRestart _ hFits with
      ⟨hMoved, hCases, -⟩
    have hDone :=
      (hCases.resolve_left hEnded).resolve_right
        fun hNot => hNot hSmooth
    rw [flatTransfer_zero, hMoved, hDone]
    rfl
  · exact
      flatTransfer_of_smooth autoRestart _ hLeft hFits
        hSmooth

omit stream in
/-
  If it is not smooth, the ends are different, also where
  the vectored transfer ends before.
-/
theorem flatTransfer_ne_progress
    (responses more : List (Sys UInt64)) {left : Nat}
    (hFits : Fits autoRestart left (responses ++ more))
    (hNot : ¬ Smooth autoRestart left (responses ++ more))
    (hEnded :
      (progress autoRestart left responses).ending ≠
        .pending) :
    (flatTransfer autoRestart left responses).ending ≠
      (progress autoRestart left
        responses).ending.toRead := by
  intro hSame
  rcases Nat.eq_zero_or_pos left with rfl | hLeft
  · rcases (progress_zero autoRestart _ hFits).2.2 hNot with
      ⟨e, hFailed⟩
    rw [progress_append autoRestart _ _ _ hEnded] at hFailed
    rw [flatTransfer_zero, hFailed] at hSame
    cases hSame
  · have hFlatEnded :
        (flatTransfer autoRestart left responses).ending ≠
          .pending := by
      rw [hSame]
      exact Ending.toRead_ne_pending hEnded
    have hEof :=
      flatTransfer_of_not_smooth autoRestart _ hLeft hNot
    rw [flatTransfer_append autoRestart _ _ _ hFlatEnded,
      hSame] at hEof
    exact Ending.toRead_ne_eof _ hEof

/- A result of 0, or an error that is not handled. -/
def Terminal (response : Sys UInt64) : Prop :=
  response = .ok 0 ∨
    ∃ e, response = .error e ∧
      handleIOError autoRestart "" e ≠ .ok ()

omit stream in
/- A smooth course ends with such an answer at the latest. -/
theorem progress_ends
    (responses : List (Sys UInt64)) {response : Sys UInt64}
    (hTerminal : Terminal autoRestart response)
    {left : Nat}
    (hSmooth :
      Smooth autoRestart left (responses ++ [response])) :
    (progress autoRestart left
        (responses ++ [response])).ending ≠ .pending := by
  induction responses generalizing left with
  | nil =>
      rcases hTerminal with rfl | ⟨e, rfl, hHard⟩
      · have hNone : left = 0 := hSmooth.1 rfl
        simp [progress, hNone]
      · rcases handleIOError_cases autoRestart e with
          hOk | hError
        · exact absurd (hOk "") hHard
        · simp [progress, hError]
  | cons first rest ih =>
      cases first with
      | ok n =>
          by_cases hAll : left ≤ n.toNat
          · simp [progress, hAll]
          · simp only [List.cons_append, progress, hAll,
              if_false]
            exact ih (hSmooth.2 (by omega))
      | error e =>
          rcases handleIOError_cases autoRestart e with
            hOk | hError
          · simp only [List.cons_append, Smooth,
              hOk] at hSmooth
            simp only [List.cons_append, progress, hOk]
            exact ih hSmooth
          · simp [progress, hError]

------------------------------------------------------------
-- The Loops Follow the Responses
------------------------------------------------------------

theorem run_readCall_restart
    {operation : String} {e : Errno}
    (hRestart :
      handleIOError autoRestart operation e = .ok ())
    (addrs : List UInt64) (rest : List (Sys UInt64))
    (pos : Nat) (memory : Memory) :
    (readCall stream autoRestart operation addrs).run
        ⟨.error e :: rest, pos, memory⟩ =
      (readCall stream autoRestart operation addrs).run
        ⟨rest, pos, memory⟩ := by
  simp only [readCall, readLoop, hRestart]

theorem run_readCall_error
    {operation : String} {e : Errno} {ex : Exn}
    (hError :
      handleIOError autoRestart operation e = .error ex)
    (addrs : List UInt64) (rest : List (Sys UInt64))
    (pos : Nat) (memory : Memory) :
    (readCall stream autoRestart operation addrs).run
        ⟨.error e :: rest, pos, memory⟩ =
      (.raised ex, ⟨rest, pos, memory⟩) := by
  simp only [readCall, readLoop, hError]

theorem run_read_ok
    (buf length n : UInt64) (rest : List (Sys UInt64))
    (pos : Nat) (memory : Memory) :
    (read stream autoRestart buf length).run
        ⟨.ok n :: rest, pos, memory⟩ =
      (.returned n,
        ⟨rest, pos + n.toNat,
          fill stream
            ((IOMemoryRegion.bytes ⟨buf, length⟩).take
              n.toNat)
            pos memory⟩) := rfl

theorem run_readVector_ok
    {n : UInt64} {v : IOVector}
    (hFits : n.toNat ≤ v.leftTotal)
    (rest : List (Sys UInt64)) (pos : Nat)
    (memory : Memory) :
    (readVector stream autoRestart).run
        ⟨⟨.ok n :: rest, pos, memory⟩, v⟩ =
      (.returned (IOVector.updateLoop n v).2.1,
        ⟨⟨rest, pos + n.toNat,
          fill stream (v.bytes.take n.toNat) pos memory⟩,
          (IOVector.updateLoop n v).2.2⟩) := by
  simp only [readVector, Command.run_bind, Command.run_get,
    Command.run_focus, readCall, readLoop,
    Command.run_relabel,
    IOVector.run_update_returned hFits]

theorem run_readVector_restart
    {e : Errno}
    (hRestart :
      handleIOError autoRestart "readv()" e = .ok ())
    (v : IOVector) (rest : List (Sys UInt64)) (pos : Nat)
    (memory : Memory) :
    (readVector stream autoRestart).run
        ⟨⟨.error e :: rest, pos, memory⟩, v⟩ =
      (readVector stream autoRestart).run
        ⟨⟨rest, pos, memory⟩, v⟩ := by
  simp only [readVector, Command.run_bind, Command.run_get,
    Command.run_focus,
    run_readCall_restart stream autoRestart hRestart]

theorem run_readVector_error
    {e : Errno} {ex : Exn}
    (hError :
      handleIOError autoRestart "readv()" e = .error ex)
    (v : IOVector) (rest : List (Sys UInt64)) (pos : Nat)
    (memory : Memory) :
    (readVector stream autoRestart).run
        ⟨⟨.error e :: rest, pos, memory⟩, v⟩ =
      (.raised ex, ⟨⟨rest, pos, memory⟩, v⟩) := by
  simp only [readVector, Command.run_bind, Command.run_get,
    Command.run_focus,
    run_readCall_error stream autoRestart hError]

/- The vectored loop fills the regions as far as it gets. -/
theorem readAllVector_progress
    (responses : List (Sys UInt64)) :
    ∀ (v : IOVector) (pos : Nat) (memory : Memory),
      Fits autoRestart v.leftTotal responses →
      ∃ v',
        readAllVector stream autoRestart
            ⟨⟨responses, pos, memory⟩, v⟩ =
          ((progress autoRestart v.leftTotal
              responses).ending.toRead.outcome "readv()",
            ⟨⟨(progress autoRestart v.leftTotal
                responses).rest,
              pos +
                (progress autoRestart v.leftTotal
                  responses).moved,
              fill stream
                (v.bytes.take
                  (progress autoRestart v.leftTotal
                    responses).moved)
                pos memory⟩, v'⟩) := by
  induction responses with
  | nil =>
      intro v pos memory hFits
      refine ⟨v, ?_⟩
      rw [readAllVector_eq]
      simp [readVector, Command.run_bind, readCall, readLoop,
        progress, Ending.toRead, ReadEnding.outcome, fill]
  | cons response rest ih =>
      intro v pos memory hFits
      cases response with
      | ok n =>
          rcases hFits with ⟨hLe, hRest⟩
          rw [readAllVector_eq,
            run_readVector_ok stream autoRestart hLe]
          have hLeft := IOVector.leftTotal_updateLoop v n
          have hBytes := IOVector.bytes_updateLoop v n
          rw [IOVector.updateLoop_finished v n]
          by_cases hAll : v.leftTotal ≤ n.toNat
          · rw [decide_eq_true hAll,
              progress_done autoRestart hAll]
            exact ⟨_, rfl⟩
          · rw [decide_eq_false hAll,
              progress_more autoRestart hAll]
            rcases ih (IOVector.updateLoop n v).2.2
                (pos + n.toNat)
                (fill stream (v.bytes.take n.toNat) pos
                  memory)
                (by
                  rw [hLeft]
                  exact hRest (by omega)) with
              ⟨v', hRun⟩
            rw [hLeft, hBytes] at hRun
            refine ⟨v', ?_⟩
            simp only [hRun]
            rw [fill_take_add stream _ pos
              (by rw [IOVector.length_bytes]; exact hLe),
              Nat.add_assoc]
      | error e =>
          unfold progress
          rcases handleIOError_cases autoRestart e with
            hOk | hError
          · rcases ih v pos memory (hFits (hOk "")) with
              ⟨v', hRun⟩
            rw [hOk]
            refine ⟨v', ?_⟩
            rw [← hRun, readAllVector_eq,
              run_readVector_restart stream autoRestart
                (hOk "readv()"), ← readAllVector_eq]
          · rw [hError]
            refine ⟨v, ?_⟩
            rw [readAllVector_eq,
              run_readVector_error stream autoRestart
                (hError "readv()")]
            rfl

/- The flat loop does what the transfer says. -/
def Transfers
    (responses : List (Sys UInt64))
    (buf length : UInt64) (pos : Nat) (memory : Memory) :
    Prop :=
  ∃ rest,
    readAll stream autoRestart buf length
        ⟨responses, pos, memory⟩ =
      ((flatTransfer autoRestart length.toNat
          responses).ending.outcome "read()",
        ⟨rest,
          pos +
            (flatTransfer autoRestart length.toNat
              responses).moved,
          fill stream
            ((IOMemoryRegion.bytes ⟨buf, length⟩).take
              (flatTransfer autoRestart length.toNat
                responses).moved)
            pos memory⟩)

theorem transfers_zero
    (responses : List (Sys UInt64))
    (buf : UInt64) (pos : Nat) (memory : Memory) :
    Transfers stream autoRestart responses buf 0 pos
      memory := by
  unfold Transfers
  rw [readAll_eq, if_pos rfl, UInt64.toNat_zero,
    flatTransfer_zero]
  exact ⟨_, rfl⟩

variable {buf length : UInt64}

omit stream autoRestart in
private theorem toNat_ne_zero (hSome : length ≠ 0) :
    length.toNat ≠ 0 := by
  intro hNone
  exact hSome (UInt64.toNat_inj.mp hNone)

/- The kernel does not answer. -/
theorem transfers_nil
    (hSome : length ≠ 0)
    (pos : Nat) (memory : Memory) :
    Transfers stream autoRestart [] buf length pos
      memory := by
  have hLeft := toNat_ne_zero hSome
  unfold Transfers
  rw [readAll_eq]
  exact
    ⟨[], by
      simp [hSome, read, readCall, readLoop, flatTransfer,
        ReadEnding.outcome, hLeft, fill]⟩

/- The end of the file, or bytes and then the rest of them. -/
theorem transfers_ok
    {n : UInt64} {rest : List (Sys UInt64)}
    (hSome : length ≠ 0)
    (hLe : n.toNat ≤ length.toNat)
    (pos : Nat) (memory : Memory)
    (hRest :
      Transfers stream autoRestart rest (buf + n)
        (length - n) (pos + n.toNat)
        (fill stream
          ((IOMemoryRegion.bytes ⟨buf, length⟩).take n.toNat)
          pos memory)) :
    Transfers stream autoRestart (.ok n :: rest) buf length
      pos memory := by
  have hLeft := toNat_ne_zero hSome
  unfold Transfers
  rw [readAll_eq, if_neg hSome, run_read_ok]
  by_cases hNone : n = 0
  · simp only [flatTransfer, hLeft, hNone, if_true, if_false]
    exact ⟨_, rfl⟩
  · have hSub :
        (length - n).toNat = length.toNat - n.toNat :=
      UInt64.toNat_sub_of_le _ _
        (UInt64.le_iff_toNat_le.mpr hLe)
    have hRoom :
        n.toNat ≤
          (IOMemoryRegion.bytes ⟨buf, length⟩).length := by
      rw [IOMemoryRegion.length_bytes]
      exact hLe
    rcases hRest with ⟨rest', hTail⟩
    rw [hSub, IOMemoryRegion.bytes_advance buf hLe] at hTail
    refine ⟨rest', ?_⟩
    simp only [flatTransfer, hLeft, hNone, if_false, hTail]
    rw [fill_take_add stream _ pos hRoom, Nat.add_assoc]

/- An error ends the loop unless the call is restarted. -/
theorem transfers_error
    {e : Errno} {rest : List (Sys UInt64)}
    (hSome : length ≠ 0)
    (pos : Nat) (memory : Memory)
    (hRest :
      handleIOError autoRestart "" e = .ok () →
        Transfers stream autoRestart rest buf length pos
          memory) :
    Transfers stream autoRestart (.error e :: rest) buf
      length pos memory := by
  have hLeft := toNat_ne_zero hSome
  unfold Transfers
  rw [readAll_eq, if_neg hSome]
  simp only [flatTransfer, hLeft, if_false]
  rcases handleIOError_cases autoRestart e with
    hOk | hError
  · rcases hRest (hOk "") with ⟨rest', hTail⟩
    refine ⟨rest', ?_⟩
    rw [readAll_eq, if_neg hSome] at hTail
    rw [hOk]
    simp only [read,
      run_readCall_restart stream autoRestart
        (hOk "read()")] at hTail ⊢
    exact hTail
  · rw [hError]
    simp only [read,
      run_readCall_error stream autoRestart
        (hError "read()")]
    exact ⟨_, rfl⟩

theorem readAll_transfer
    (responses : List (Sys UInt64)) :
    ∀ (buf length : UInt64) (pos : Nat) (memory : Memory),
      (0 < length.toNat →
        Fits autoRestart length.toNat responses) →
      Transfers stream autoRestart responses buf length pos
        memory := by
  induction responses with
  | nil =>
      intro buf length pos memory _
      by_cases hZero : length = 0
      · subst hZero
        exact transfers_zero stream autoRestart [] buf pos _
      · exact transfers_nil stream autoRestart hZero pos _
  | cons response rest ih =>
      intro buf length pos memory hFits
      by_cases hZero : length = 0
      · subst hZero
        exact transfers_zero stream autoRestart _ buf pos _
      have hLeft : 0 < length.toNat :=
        Nat.pos_of_ne_zero (toNat_ne_zero hZero)
      cases response with
      | ok n =>
          rcases hFits hLeft with ⟨hLe, hRest⟩
          have hSub :
              (length - n).toNat =
                length.toNat - n.toNat :=
            UInt64.toNat_sub_of_le _ _
              (UInt64.le_iff_toNat_le.mpr hLe)
          apply transfers_ok stream autoRestart hZero hLe
          apply ih
          intro hMore
          rw [hSub] at hMore ⊢
          exact hRest (by omega)
      | error e =>
          apply transfers_error stream autoRestart hZero
          intro hOk
          exact ih buf length pos memory fun _ =>
            hFits hLeft hOk

------------------------------------------------------------
-- Endless Answers
------------------------------------------------------------

omit stream in
theorem exists_append_of_le
    (responses : Nat → Sys UInt64) {k m : Nat}
    (hLe : k ≤ m) :
    ∃ more,
      (List.range m).map responses =
        (List.range k).map responses ++ more := by
  refine
    ⟨(List.range (m - k)).map fun i => responses (k + i), ?_⟩
  have hSum : m = k + (m - k) := by omega
  rw [hSum, List.range_add, List.map_append, List.map_map]
  simp only [Nat.add_sub_cancel_left]
  rfl

/-
  The vectored call ends after some of the answers, in the
  way the flat call does after these answers, and with the
  same bytes of the file in its regions; and it returns just
  if they are all full.
-/
def EndsAsFlat
    (v : IOVector) (memory : Memory)
    (responses : Nat → Sys UInt64) : Prop :=
  ∃ k ending n s',
    ending ≠ ReadEnding.pending ∧
      readAllVector stream autoRestart
          ⟨⟨(List.range k).map responses, 0, memory⟩, v⟩ =
        (ending.outcome "readv()", s') ∧
      s'.source.pos = n ∧
      s'.source.memory =
        fill stream (v.bytes.take n) 0 memory ∧
      (ending = .done ↔ n = v.leftTotal) ∧
      flatTransfer autoRestart v.leftTotal
          ((List.range k).map responses) = ⟨n, ending⟩ ∧
      ∀ r : IOMemoryRegion,
        r.iovLen.toNat = v.leftTotal →
        ∃ rest,
          readAll stream autoRestart r.iovBase r.iovLen
              ⟨(List.range k).map responses, 0, memory⟩ =
            (ending.outcome "read()",
              ⟨rest, n, fill stream (r.bytes.take n) 0
                memory⟩)

omit stream in
theorem outcome_injective
    {operation : String} {ending other : ReadEnding}
    (hSame :
      ending.outcome operation = other.outcome operation) :
    ending = other := by
  cases ending <;> cases other <;>
    simp_all [ReadEnding.outcome]

omit stream in
/- A flat transfer is done just if everything was moved. -/
theorem flatTransfer_done_iff
    (responses : List (Sys UInt64)) (left : Nat)
    (hFits : 0 < left → Fits autoRestart left responses) :
    (flatTransfer autoRestart left responses).ending =
        .done ↔
      (flatTransfer autoRestart left responses).moved =
        left := by
  induction responses generalizing left with
  | nil =>
      by_cases hLeft : left = 0
      · simp [flatTransfer, hLeft]
      · simp [flatTransfer, hLeft, Ne.symm hLeft]
  | cons response rest ih =>
      by_cases hLeft : left = 0
      · simp [hLeft, flatTransfer_zero]
      · replace hFits := hFits (Nat.pos_of_ne_zero hLeft)
        cases response with
        | ok n =>
            rcases hFits with ⟨hLe, hRest⟩
            by_cases hZero : n = 0
            · simp [flatTransfer, hLeft, hZero,
                Ne.symm hLeft]
            · simp only [flatTransfer, hLeft, hZero,
                if_false]
              rw [ih (left - n.toNat)
                fun hMore => hRest (by omega)]
              omega
        | error e =>
            simp only [flatTransfer, hLeft, if_false]
            rcases handleIOError_cases autoRestart e with
              hOk | hError
            · rw [hOk]
              exact ih left fun _ => hFits (hOk "")
            · rw [hError]
              simp [Ne.symm hLeft]

/- On a smooth course the two calls end in the same way. -/
theorem endsAsFlat_of_smooth
    {v : IOVector} {responses : Nat → Sys UInt64} (k : Nat)
    (memory : Memory)
    (hFits :
      Fits autoRestart v.leftTotal
        ((List.range k).map responses))
    (hSmooth :
      Smooth autoRestart v.leftTotal
        ((List.range k).map responses))
    (hEnded :
      (progress autoRestart v.leftTotal
        ((List.range k).map responses)).ending ≠
        .pending) :
    EndsAsFlat stream autoRestart v memory responses := by
  rcases readAllVector_progress stream autoRestart _ v 0
      memory hFits with
    ⟨v', hRun⟩
  have hFlat :=
    flatTransfer_eq_progress autoRestart _ hFits hSmooth
      hEnded
  have hDone :=
    flatTransfer_done_iff autoRestart
      ((List.range k).map responses) v.leftTotal
      fun _ => hFits
  rw [hFlat] at hDone
  refine
    ⟨k, _, _, _, Ending.toRead_ne_pending hEnded, hRun,
      Nat.zero_add _, rfl, hDone, hFlat, ?_⟩
  intro r hLength
  rw [← hLength] at hFits
  rcases readAll_transfer stream autoRestart _ r.iovBase
      r.iovLen 0 memory (fun _ => hFits) with
    ⟨rest, hRead⟩
  rw [hLength, hFlat, Nat.zero_add] at hRead
  exact ⟨rest, hRead⟩

/-
  Reading into a vector ends as reading into a flat buffer
  exactly if the file does not end while there are bytes to
  read, and no error comes when there are none.
-/
theorem readAllVector_ends_iff
    (v : IOVector) (memory : Memory)
    (responses : Nat → Sys UInt64)
    (hFits :
      ∀ k,
        Fits autoRestart v.leftTotal
          ((List.range k).map responses))
    (hEnds :
      ∃ m, (∀ k, m ≤ k → responses k = .ok 0) ∨
        ∃ e, responses m = .error e ∧
          handleIOError autoRestart "" e ≠ .ok ()) :
    EndsAsFlat stream autoRestart v memory responses ↔
      ∀ k,
        Smooth autoRestart v.leftTotal
          ((List.range k).map responses) := by
  constructor
  · rintro ⟨k, ending, n, s', hEnded, hVector, -, -, -, hFlat,
      -⟩ j
    by_contra hNot
    rcases readAllVector_progress stream autoRestart
        ((List.range k).map responses) v 0 memory (hFits k)
      with ⟨v', hRun⟩
    have hEnding :
        (progress autoRestart v.leftTotal
          ((List.range k).map responses)).ending.toRead =
          ending := by
      rw [hVector] at hRun
      exact
        (outcome_injective (congrArg Prod.fst hRun)).symm
    have hNotPending :
        (progress autoRestart v.leftTotal
          ((List.range k).map responses)).ending ≠
          .pending := by
      intro hPending
      rw [hPending] at hEnding
      exact hEnded hEnding.symm
    rcases exists_append_of_le responses
        (Nat.le_max_left k j) with
      ⟨more, hLonger⟩
    rcases exists_append_of_le responses
        (Nat.le_max_right k j) with
      ⟨more', hLonger'⟩
    have hFitsLonger := hFits (max k j)
    have hNotLonger :
        ¬ Smooth autoRestart v.leftTotal
          ((List.range (max k j)).map responses) := by
      rw [hLonger']
      exact fun hSmooth =>
        hNot (smooth_of_append autoRestart _ _ _ hSmooth)
    rw [hLonger] at hFitsLonger hNotLonger
    refine
      flatTransfer_ne_progress autoRestart _ more
        hFitsLonger hNotLonger hNotPending ?_
    rw [hFlat, hEnding]
  · intro hSmooth
    rcases hEnds with ⟨m, hEnds⟩
    have hTerminal : Terminal autoRestart (responses m) :=
      hEnds.imp (fun hZero => hZero m le_rfl) id
    have hRange :
        (List.range (m + 1)).map responses =
          (List.range m).map responses ++ [responses m] := by
      simp [List.range_succ]
    refine
      endsAsFlat_of_smooth stream autoRestart (m + 1) memory
        (hFits (m + 1)) (hSmooth (m + 1)) ?_
    rw [hRange]
    refine progress_ends autoRestart _ hTerminal ?_
    rw [← hRange]
    exact hSmooth (m + 1)

/- At the end of the file the vectored call goes on. -/
theorem readAllVector_at_eof
    {v : IOVector} (hLeft : 0 < v.leftTotal)
    (k : Nat) (memory : Memory) :
    (readAllVector stream autoRestart
      ⟨⟨(List.range k).map fun _ => .ok 0, 0, memory⟩,
        v⟩).1 = .halted .pending := by
  have hPending : ∀ responses : List (Sys UInt64),
      (∀ response ∈ responses, response = .ok 0) →
        Fits autoRestart v.leftTotal responses ∧
          (progress autoRestart v.leftTotal
            responses).ending = .pending := by
    intro responses
    induction responses with
    | nil => exact fun _ => ⟨trivial, rfl⟩
    | cons response rest ih =>
        intro hAll
        rcases ih
            (fun r hMem =>
              hAll r (List.mem_cons_of_mem _ hMem)) with
          ⟨hFits, hRest⟩
        have hMore : ¬ v.leftTotal ≤ 0 := by omega
        rw [hAll response List.mem_cons_self]
        refine ⟨⟨Nat.zero_le _, fun _ => hFits⟩, ?_⟩
        simpa [progress, hMore] using hRest
  rcases hPending ((List.range k).map fun _ => .ok 0)
      (by simp) with
    ⟨hFits, hRest⟩
  rcases readAllVector_progress stream autoRestart _ v 0
      memory hFits with
    ⟨v', hRun⟩
  rw [hRun, hRest]
  rfl

end Reading

/- Two short reads with an interrupted call between them. -/
def resumedAnswers (k : Nat) : Sys UInt64 :=
  if k = 1 then .error .interrupted
  else if k ≤ 2 then .ok 1
  else .ok 0

theorem readAllVector_ends_resumed :
    EndsAsFlat (fun pos => UInt8.ofNat pos) true
      [⟨0x10, 1⟩, ⟨0x20, 1⟩] (fun _ => 0)
      resumedAnswers := by
  have hLonger : ∀ k, ∃ more more' : List (Sys UInt64),
      [.ok 1, .error .interrupted, .ok 1] ++ more =
        (List.range k).map resumedAnswers ++ more' := by
    intro k
    rcases exists_append_of_le resumedAnswers
        (Nat.le_max_right k 3) with
      ⟨more, hThree⟩
    rcases exists_append_of_le resumedAnswers
        (Nat.le_max_left k 3) with
      ⟨more', hFirst⟩
    exact ⟨more, more', hThree.symm.trans hFirst⟩
  refine
    (readAllVector_ends_iff _ _ _ _ _ ?_ ?_).mpr ?_
  · intro k
    rcases hLonger k with ⟨more, more', hLonger⟩
    refine fits_of_append true _ more' 2 ?_
    rw [← hLonger]
    refine ⟨by decide, fun _ _ => ⟨by decide, ?_⟩⟩
    intro hMore
    exact absurd hMore (by decide)
  · refine ⟨3, Or.inl fun k hk => ?_⟩
    have hNe : k ≠ 1 := by omega
    have hMore : ¬ k ≤ 2 := by omega
    simp [resumedAnswers, hNe, hMore]
  · intro k
    rcases hLonger k with ⟨more, more', hLonger⟩
    refine smooth_of_append true _ more' 2 ?_
    rw [← hLonger]
    refine ⟨by decide, fun _ => ⟨by decide, ?_⟩⟩
    intro hMore
    exact absurd hMore (by decide)

/-
  The file is at its end, and one byte is to be read: the
  flat call throws, and the vectored one never ends.
-/
theorem readAllVector_never_ends :
    (∀ k,
      (readAllVector (fun _ => 0) true
        ⟨⟨(List.range k).map fun _ => .ok 0, 0, fun _ => 0⟩,
          [⟨0x10, 1⟩]⟩).1 = .halted .pending) ∧
      (readAll (fun _ => 0) true 0x10 1
          ⟨[.ok 0], 0, fun _ => 0⟩).1 =
        .raised (.runtimeError (str "unexpected EOF")) ∧
      ¬ EndsAsFlat (fun _ => 0) true [⟨0x10, 1⟩]
        (fun _ => 0) (fun _ => .ok 0) := by
  have hNever :=
    fun k =>
      readAllVector_at_eof (fun _ => 0) true
        (by decide : 0 < IOVector.leftTotal [⟨0x10, 1⟩]) k
        fun _ => 0
  refine ⟨hNever, ?_, ?_⟩
  · rw [readAll_eq]
    simp [read, readCall, readLoop]
  · rintro ⟨k, ending, n, s', hEnded, hVector, -⟩
    have hPending := hNever k
    rw [hVector] at hPending
    have hOther : ending = .pending :=
      outcome_injective
        (hPending.trans (rfl : _ =
          ReadEnding.pending.outcome "readv()"))
    exact hEnded hOther

end StreamIO

end Cosmos
