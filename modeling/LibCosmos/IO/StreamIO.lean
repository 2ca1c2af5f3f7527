import LibCosmos.IO.IOVector
import LibCosmos.FS.FileDescriptor

/-
  Writing all of a buffer and all of a vector of regions to
  a file (`src/io/StreamIO.cxx`, `include/io/StreamIO.hxx`).

  The kernel answers the system calls from a list of
  responses. When the list is used up the next call has not
  returned yet.

  Main declarations:
    * `StreamIO.write`, `StreamIO.writeAll`
    * `StreamIO.writeVector`, `StreamIO.writeAllVector`
    * `StreamIO.progress`, the transfer that a list of
      responses amounts to
    * `StreamIO.writeAllVector_progress` and
      `StreamIO.writeAll_progress`
    * `StreamIO.writeAllVector_transfers`
-/

namespace Cosmos

namespace StreamIO

------------------------------------------------------------
-- System Calls
------------------------------------------------------------

/-
  Why a call gives no result: the process ended, or the
  kernel has not answered.
-/
inductive Stop where
| halt (h : Halt)
| pending
deriving DecidableEq, Repr

/-
  The answers to the coming system calls and the bytes that
  the file got so far.
-/
structure Kernel where
  responses : List (Sys UInt64)
  file : List Byte

/- The content of the memory. -/
abbrev Memory := UInt64 → Byte

/- `handleIOError`: an exception unless the call restarts. -/
def handleIOError
    (autoRestart : Bool) (operation : String) (e : Errno) :
    Except Exn Unit :=
  if autoRestart && e == Errno.interrupted then .ok ()
  else .error (.apiError e (str operation))

/-
  The `while (true)` around a system call that writes from
  `data`. The kernel takes the number of bytes it answers
  from the start of the data.
-/
def callLoop
    (operation : String) (autoRestart : Bool)
    (data file : List Byte) :
    List (Sys UInt64) → Outcome Stop Exn UInt64 × Kernel
| [] => (.halted .pending, ⟨[], file⟩)
| .ok n :: rest =>
    (.returned n, ⟨rest, file ++ data.take n.toNat⟩)
| .error e :: rest =>
    match handleIOError autoRestart operation e with
    | .ok () => callLoop operation autoRestart data file rest
    | .error ex => (.raised ex, ⟨rest, file⟩)

def call
    (operation : String) (autoRestart : Bool)
    (data : List Byte) : Command Kernel Stop Exn UInt64 where
  run s :=
    callLoop operation autoRestart data s.file s.responses

/- A call that returned used up a response. -/
theorem callLoop_shorter
    {operation : String} {autoRestart : Bool}
    {data file : List Byte} {responses : List (Sys UInt64)}
    {n : UInt64} {s : Kernel}
    (hCall :
      callLoop operation autoRestart data file responses =
        (.returned n, s)) :
    s.responses.length < responses.length := by
  induction responses with
  | nil => cases hCall
  | cons response rest ih =>
      cases response with
      | ok m =>
          cases hCall
          simp
      | error e =>
          unfold callLoop at hCall
          cases hHandle :
              handleIOError autoRestart operation e with
          | ok =>
              rw [hHandle] at hCall
              have hRest := ih hCall
              simp only [List.length_cons]
              omega
          | error ex =>
              rw [hHandle] at hCall
              cases hCall

section Writing

variable (mem : Memory) (autoRestart : Bool)

/- What the memory holds in the regions of a vector. -/
def content (v : IOVector) : List Byte :=
  v.bytes.map mem

------------------------------------------------------------
-- Flat Buffers
------------------------------------------------------------

/- `StreamIO::write(const void *, size_t)`. -/
def write (buf length : UInt64) :
    Command Kernel Stop Exn UInt64 :=
  call "write()" autoRestart
    (content mem [⟨buf, length⟩])

/- `StreamIO::writeAll(const void *, size_t)`. -/
def writeAll (buf length : UInt64) (s : Kernel) :
    Outcome Stop Exn Unit × Kernel :=
  if length = 0 then (.returned (), s)
  else
    match _hWrite :
        (write mem autoRestart buf length).run s with
    | (.returned res, s') =>
        writeAll (buf + res) (length - res) s'
    | (.raised ex, s') => (.raised ex, s')
    | (.halted h, s') => (.halted h, s')
termination_by s.responses.length
decreasing_by exact callLoop_shorter _hWrite

------------------------------------------------------------
-- Vectors
------------------------------------------------------------

/- The kernel together with the caller's vector. -/
structure Stream where
  kernel : Kernel
  iovec : IOVector

/- `StreamIO::write(WriteIOVector &)`. -/
def writeVector : Command Stream Stop Exn Bool := do
  let s ← Command.get
  let res ←
    (call "writev()" autoRestart (content mem s.iovec)).focus
      Stream.kernel (fun kernel s => { s with kernel := kernel })
  ((IOVector.update res).relabel .halt).focus
    Stream.iovec (fun iovec s => { s with iovec := iovec })

theorem writeVector_shorter
    {s s' : Stream} {done : Bool}
    (hWrite :
      (writeVector mem autoRestart).run s =
        (.returned done, s')) :
    s'.kernel.responses.length <
      s.kernel.responses.length := by
  simp only [writeVector, Command.run_bind, Command.run_get,
    Command.run_focus] at hWrite
  cases hCall :
      (call "writev()" autoRestart
        (content mem s.iovec)).run s.kernel with
  | mk outcome kernel =>
      rw [hCall] at hWrite
      cases outcome with
      | returned n =>
          have hKernel := congrArg
            (fun r => r.2.kernel) hWrite
          simp only at hKernel
          rw [← hKernel]
          exact callLoop_shorter hCall
      | raised ex => cases hWrite
      | halted h => cases hWrite

/- `StreamIO::writeAll(WriteIOVector &)`. -/
def writeAllVector (s : Stream) :
    Outcome Stop Exn Unit × Stream :=
  match _hWrite : (writeVector mem autoRestart).run s with
  | (.returned true, s') => (.returned (), s')
  | (.returned false, s') => writeAllVector s'
  | (.raised ex, s') => (.raised ex, s')
  | (.halted h, s') => (.halted h, s')
termination_by s.kernel.responses.length
decreasing_by
  exact writeVector_shorter mem autoRestart _hWrite

theorem writeAll_eq (buf length : UInt64) (s : Kernel) :
    writeAll mem autoRestart buf length s =
      if length = 0 then (.returned (), s)
      else
        match (write mem autoRestart buf length).run s with
        | (.returned res, s') =>
            writeAll mem autoRestart (buf + res)
              (length - res) s'
        | (.raised ex, s') => (.raised ex, s')
        | (.halted h, s') => (.halted h, s') := by
  rw [writeAll]
  split
  · rfl
  · split <;> next hWrite => rw [hWrite]

theorem writeAllVector_eq (s : Stream) :
    writeAllVector mem autoRestart s =
      match (writeVector mem autoRestart).run s with
      | (.returned true, s') => (.returned (), s')
      | (.returned false, s') =>
          writeAllVector mem autoRestart s'
      | (.raised ex, s') => (.raised ex, s')
      | (.halted h, s') => (.halted h, s') := by
  rw [writeAllVector]
  split <;> next hWrite => rw [hWrite]

------------------------------------------------------------
-- What the Responses Amount To
------------------------------------------------------------

/- How a transfer ends. -/
inductive Ending where
| done
| failed (e : Errno)
| pending
deriving DecidableEq, Repr

def Ending.outcome (operation : String) :
    Ending → Outcome Stop Exn Unit
| .done => .returned ()
| .failed e => .raised (.apiError e (str operation))
| .pending => .halted .pending

structure Progress where
  moved : Nat
  ending : Ending
  rest : List (Sys UInt64)

/-
  The transfer of `left` bytes by calls that are answered by
  the responses: how many bytes move, how it ends and which
  responses are not used.
-/
def progress : Nat → List (Sys UInt64) → Progress
| _, [] => ⟨0, .pending, []⟩
| left, .ok n :: rest =>
    if left ≤ n.toNat then ⟨n.toNat, .done, rest⟩
    else
      let p := progress (left - n.toNat) rest
      { p with moved := n.toNat + p.moved }
| left, .error e :: rest =>
    match handleIOError autoRestart "" e with
    | .ok () => progress left rest
    | .error _ => ⟨0, .failed e, rest⟩

theorem progress_done
    {left : Nat} {n : UInt64} (hAll : left ≤ n.toNat)
    (rest : List (Sys UInt64)) :
    progress autoRestart left (.ok n :: rest) =
      ⟨n.toNat, .done, rest⟩ :=
  if_pos hAll

theorem progress_more
    {left : Nat} {n : UInt64} (hMore : ¬ left ≤ n.toNat)
    (rest : List (Sys UInt64)) :
    progress autoRestart left (.ok n :: rest) =
      { progress autoRestart (left - n.toNat) rest with
        moved :=
          n.toNat +
            (progress autoRestart (left - n.toNat)
              rest).moved } :=
  if_neg hMore

/-
  The responses that a kernel can give while `left` bytes
  are to be written: transfers of a positive size up to what
  is left (of no byte only if none is left), failures that
  lead to a restart, and a final failure.
-/
def Legal : Nat → List (Sys UInt64) → Prop
| _, [] => True
| left, .ok n :: rest =>
    n.toNat ≤ left ∧ (0 < n.toNat ∨ left = 0) ∧
      (n.toNat < left → Legal (left - n.toNat) rest)
| left, .error e :: rest =>
    handleIOError autoRestart "" e = .ok () →
      Legal left rest

/- The label does not decide whether a call restarts. -/
theorem handleIOError_cases (e : Errno) :
    (∀ operation,
      handleIOError autoRestart operation e = .ok ()) ∨
    (∀ operation,
      handleIOError autoRestart operation e =
        .error (.apiError e (str operation))) := by
  unfold handleIOError
  split
  · exact Or.inl fun _ => rfl
  · exact Or.inr fun _ => rfl

theorem moved_le
    (left : Nat) (responses : List (Sys UInt64))
    (hLegal : Legal autoRestart left responses) :
    (progress autoRestart left responses).moved ≤ left := by
  induction responses generalizing left with
  | nil => exact Nat.zero_le _
  | cons response rest ih =>
      cases response with
      | ok n =>
          rcases hLegal with ⟨hLe, -, hRest⟩
          unfold progress
          split
          · exact hLe
          · next hMore =>
              have hTail :=
                ih (left - n.toNat) (hRest (by omega))
              simp only
              omega
      | error e =>
          unfold progress
          rcases handleIOError_cases autoRestart e with
            hOk | hError
          · rw [hOk]
            exact ih left (hLegal (hOk ""))
          · rw [hError]
            exact Nat.zero_le _

/- A transfer is done when and only when all has moved. -/
theorem ending_done_iff
    (left : Nat) (responses : List (Sys UInt64))
    (hLegal : Legal autoRestart left responses)
    (hLeft : 0 < left) :
    (progress autoRestart left responses).ending = .done ↔
      (progress autoRestart left responses).moved =
        left := by
  induction responses generalizing left with
  | nil =>
      unfold progress
      constructor
      · intro hDone
        cases hDone
      · intro hMoved
        simp only at hMoved
        omega
  | cons response rest ih =>
      cases response with
      | ok n =>
          rcases hLegal with ⟨hLe, -, hRest⟩
          unfold progress
          split
          · simp only [true_iff]
            omega
          · next hMore =>
              have hTail :=
                ih (left - n.toNat) (hRest (by omega))
                  (by omega)
              simp only [hTail]
              omega
      | error e =>
          unfold progress
          rcases handleIOError_cases autoRestart e with
            hOk | hError
          · rw [hOk]
            exact ih left (hLegal (hOk "")) hLeft
          · rw [hError]
            constructor
            · intro hDone
              cases hDone
            · intro hMoved
              simp only at hMoved
              omega

------------------------------------------------------------
-- The Loops Follow the Responses
------------------------------------------------------------

theorem length_content (v : IOVector) :
    (content mem v).length = v.leftTotal := by
  simp [content]

/- The buffer behind the first bytes of a buffer. -/
theorem content_advance
    (buf : UInt64) {n length : UInt64}
    (hLe : n.toNat ≤ length.toNat) :
    content mem [⟨buf + n, length - n⟩] =
      (content mem [⟨buf, length⟩]).drop n.toNat := by
  simp [content, IOMemoryRegion.bytes_advance buf hLe,
    List.map_drop]

/- A call whose response leads to a restart. -/
theorem run_call_restart
    {operation : String} {e : Errno}
    (hRestart :
      handleIOError autoRestart operation e = .ok ())
    (data file : List Byte) (rest : List (Sys UInt64)) :
    (call operation autoRestart data).run
        ⟨.error e :: rest, file⟩ =
      (call operation autoRestart data).run
        ⟨rest, file⟩ := by
  simp only [call, callLoop, hRestart]

theorem run_call_error
    {operation : String} {e : Errno} {ex : Exn}
    (hError :
      handleIOError autoRestart operation e = .error ex)
    (data file : List Byte) (rest : List (Sys UInt64)) :
    (call operation autoRestart data).run
        ⟨.error e :: rest, file⟩ =
      (.raised ex, ⟨rest, file⟩) := by
  simp only [call, callLoop, hError]

theorem run_writeVector_ok
    {n : UInt64} {v : IOVector}
    (hFits : n.toNat ≤ v.leftTotal)
    (file : List Byte) (rest : List (Sys UInt64)) :
    (writeVector mem autoRestart).run
        ⟨⟨.ok n :: rest, file⟩, v⟩ =
      (.returned (IOVector.updateLoop n v).2.1,
        ⟨⟨rest, file ++ (content mem v).take n.toNat⟩,
          (IOVector.updateLoop n v).2.2⟩) := by
  simp only [writeVector, Command.run_bind, Command.run_get,
    Command.run_focus, call, callLoop, Command.run_relabel,
    IOVector.run_update_returned hFits]

theorem run_writeVector_restart
    {e : Errno}
    (hRestart :
      handleIOError autoRestart "writev()" e = .ok ())
    (v : IOVector)
    (file : List Byte) (rest : List (Sys UInt64)) :
    (writeVector mem autoRestart).run
        ⟨⟨.error e :: rest, file⟩, v⟩ =
      (writeVector mem autoRestart).run
        ⟨⟨rest, file⟩, v⟩ := by
  simp only [writeVector, Command.run_bind, Command.run_get,
    Command.run_focus,
    run_call_restart autoRestart hRestart]

theorem run_writeVector_error
    {e : Errno} {ex : Exn}
    (hError :
      handleIOError autoRestart "writev()" e = .error ex)
    (v : IOVector)
    (file : List Byte) (rest : List (Sys UInt64)) :
    (writeVector mem autoRestart).run
        ⟨⟨.error e :: rest, file⟩, v⟩ =
      (.raised ex, ⟨⟨rest, file⟩, v⟩) := by
  simp only [writeVector, Command.run_bind, Command.run_get,
    Command.run_focus, run_call_error autoRestart hError]

/-
  The vectored loop moves what the responses amount to and
  leaves the vector describing the rest.
-/
theorem writeAllVector_progress
    (responses : List (Sys UInt64)) :
    ∀ (v : IOVector) (file : List Byte),
      Legal autoRestart v.leftTotal responses →
      ∃ v',
        writeAllVector mem autoRestart
            ⟨⟨responses, file⟩, v⟩ =
          ((progress autoRestart v.leftTotal
              responses).ending.outcome "writev()",
            ⟨⟨(progress autoRestart v.leftTotal
                responses).rest,
              file ++ (content mem v).take
                (progress autoRestart v.leftTotal
                  responses).moved⟩, v'⟩) ∧
        v'.bytes =
          v.bytes.drop
            (progress autoRestart v.leftTotal
              responses).moved := by
  induction responses with
  | nil =>
      intro v file hLegal
      refine ⟨v, ?_, by simp [progress]⟩
      rw [writeAllVector_eq]
      simp [writeVector, Command.run_bind, call, callLoop,
        progress, Ending.outcome]
  | cons response rest ih =>
      intro v file hLegal
      cases response with
      | ok n =>
          rcases hLegal with ⟨hLe, -, hRest⟩
          rw [writeAllVector_eq,
            run_writeVector_ok mem autoRestart hLe]
          have hLeft := IOVector.leftTotal_updateLoop v n
          have hBytes := IOVector.bytes_updateLoop v n
          rw [IOVector.updateLoop_finished v n]
          by_cases hAll : v.leftTotal ≤ n.toNat
          · rw [decide_eq_true hAll,
              progress_done autoRestart hAll]
            exact ⟨_, rfl, hBytes⟩
          · rw [decide_eq_false hAll,
              progress_more autoRestart hAll]
            rcases ih (IOVector.updateLoop n v).2.2
                (file ++ (content mem v).take n.toNat)
                (by
                  rw [hLeft]
                  exact hRest (by omega)) with
              ⟨v', hRun, hRestBytes⟩
            rw [hLeft] at hRun hRestBytes
            refine ⟨v', ?_, ?_⟩
            · have hContent :
                  content mem
                      (IOVector.updateLoop n v).2.2 =
                    (content mem v).drop n.toNat := by
                simp only [content, hBytes, List.map_drop]
              simp only [hRun]
              rw [hContent, List.append_assoc,
                ← List.take_add]
            · rw [hRestBytes, hBytes, List.drop_drop]
      | error e =>
          unfold progress
          rcases handleIOError_cases autoRestart e with
            hOk | hError
          · rcases ih v file (hLegal (hOk "")) with
              ⟨v', hRun, hBytes⟩
            rw [hOk]
            refine ⟨v', ?_, hBytes⟩
            rw [← hRun, writeAllVector_eq,
              run_writeVector_restart mem autoRestart
                (hOk "writev()"), ← writeAllVector_eq]
          · rw [hError]
            refine ⟨v, ?_, by simp⟩
            rw [writeAllVector_eq,
              run_writeVector_error mem autoRestart
                (hError "writev()")]
            simp [Ending.outcome]

/- The flat loop moves what the responses amount to. -/
def Writes
    (responses : List (Sys UInt64))
    (buf length : UInt64) (file : List Byte) : Prop :=
  writeAll mem autoRestart buf length ⟨responses, file⟩ =
    ((progress autoRestart length.toNat
        responses).ending.outcome "write()",
      ⟨(progress autoRestart length.toNat responses).rest,
        file ++ (content mem [⟨buf, length⟩]).take
          (progress autoRestart length.toNat
            responses).moved⟩)

variable {buf length : UInt64}

/- The last bytes are taken, or some and then the others. -/
theorem writes_ok
    {n : UInt64} {rest : List (Sys UInt64)}
    (hSome : length ≠ 0)
    (hLe : n.toNat ≤ length.toNat)
    (file : List Byte)
    (hRest :
      n.toNat < length.toNat →
        Writes mem autoRestart rest (buf + n) (length - n)
          (file ++
            (content mem [⟨buf, length⟩]).take n.toNat)) :
    Writes mem autoRestart (.ok n :: rest) buf length
      file := by
  have hSub :
      (length - n).toNat = length.toNat - n.toNat :=
    UInt64.toNat_sub_of_le _ _
      (UInt64.le_iff_toNat_le.mpr hLe)
  have hRun :
      (write mem autoRestart buf length).run
          ⟨.ok n :: rest, file⟩ =
        (.returned n,
          ⟨rest, file ++
            (content mem [⟨buf, length⟩]).take
              n.toNat⟩) := rfl
  unfold Writes
  rw [writeAll_eq, if_neg hSome, hRun]
  by_cases hAll : length.toNat ≤ n.toNat
  · have hZero : length - n = 0 := by
      apply UInt64.toNat_inj.mp
      rw [hSub, UInt64.toNat_zero]
      omega
    simp only
    rw [writeAll_eq, if_pos hZero,
      progress_done autoRestart hAll]
    rfl
  · have hTail := hRest (Nat.lt_of_not_le hAll)
    unfold Writes at hTail
    rw [hSub] at hTail
    simp only [hTail]
    rw [content_advance mem buf hLe,
      progress_more autoRestart hAll,
      List.append_assoc, ← List.take_add]

/- An error ends the loop unless the call is restarted. -/
theorem writes_error
    {e : Errno} {rest : List (Sys UInt64)}
    (hSome : length ≠ 0)
    (file : List Byte)
    (hRest :
      handleIOError autoRestart "" e = .ok () →
        Writes mem autoRestart rest buf length file) :
    Writes mem autoRestart (.error e :: rest) buf length
      file := by
  unfold Writes
  rw [writeAll_eq, if_neg hSome]
  unfold progress
  rcases handleIOError_cases autoRestart e with
    hOk | hError
  · have hTail := hRest (hOk "")
    unfold Writes at hTail
    rw [writeAll_eq, if_neg hSome] at hTail
    rw [hOk]
    simp only [write,
      run_call_restart autoRestart (hOk "write()")]
      at hTail ⊢
    exact hTail
  · rw [hError]
    simp [write,
      run_call_error autoRestart (hError "write()"),
      Ending.outcome]

theorem writeAll_progress
    (responses : List (Sys UInt64)) :
    ∀ (buf length : UInt64) (file : List Byte),
      0 < length.toNat →
      Legal autoRestart length.toNat responses →
      Writes mem autoRestart responses buf length file := by
  induction responses with
  | nil =>
      intro buf length file hLength hLegal
      have hNe : length ≠ 0 := by
        rintro rfl
        simp at hLength
      unfold Writes
      rw [writeAll_eq, if_neg hNe]
      simp [write, call, callLoop, progress,
        Ending.outcome]
  | cons response rest ih =>
      intro buf length file hLength hLegal
      have hNe : length ≠ 0 := by
        rintro rfl
        simp at hLength
      cases response with
      | ok n =>
          rcases hLegal with ⟨hLe, hPositive, hRest⟩
          have hSub :
              (length - n).toNat =
                length.toNat - n.toNat :=
            UInt64.toNat_sub_of_le _ _
              (UInt64.le_iff_toNat_le.mpr hLe)
          apply writes_ok mem autoRestart hNe hLe
          intro hMore
          apply ih
          · omega
          · rw [hSub]
            exact hRest hMore
      | error e =>
          apply writes_error mem autoRestart hNe
          intro hOk
          exact ih buf length file hLength (hLegal hOk)

------------------------------------------------------------
-- Vectored and Flat Transfers
------------------------------------------------------------

/-
  Both calls returned, both failed with one errno, or both
  wait for the kernel.
-/
def SameEnd (vectored flat : Outcome Stop Exn Unit) : Prop :=
  ∃ ending : Ending,
    vectored = ending.outcome "writev()" ∧
      flat = ending.outcome "write()"

theorem ending_returned_iff
    (operation : String) (ending : Ending) :
    ending.outcome operation = .returned () ↔
      ending = .done := by
  cases ending <;> simp [Ending.outcome]

/-
  Whatever the kernel answers, the vectored `writeAll` moves
  a prefix of the concatenated regions to the file and
  leaves the vector describing the rest. When it returns all
  has moved, and when all of a nonempty content has moved it
  returns. The flat `writeAll` on a buffer with the same
  content does the same with the same answers; for an empty
  content it makes no call, where the vectored one makes
  one, which may fail.
-/
theorem writeAllVector_transfers
    (v : IOVector)
    (responses : List (Sys UInt64))
    (file : List Byte)
    (hLegal : Legal autoRestart v.leftTotal responses) :
    ∃ outcome rest n v',
      writeAllVector mem autoRestart
          ⟨⟨responses, file⟩, v⟩ =
        (outcome,
          ⟨⟨rest, file ++ (content mem v).take n⟩, v'⟩) ∧
      n ≤ v.leftTotal ∧
      v'.bytes = v.bytes.drop n ∧
      (outcome = .returned () → n = v.leftTotal) ∧
      (0 < v.leftTotal → n = v.leftTotal →
        outcome = .returned ()) ∧
      ∀ r : IOMemoryRegion,
        content mem [r] = content mem v →
        (v.leftTotal = 0 →
          writeAll mem autoRestart r.iovBase r.iovLen
              ⟨responses, file⟩ =
            (.returned (), ⟨responses, file⟩)) ∧
        (0 < v.leftTotal →
          ∃ flat,
            SameEnd outcome flat ∧
            writeAll mem autoRestart r.iovBase r.iovLen
                ⟨responses, file⟩ =
              (flat,
                ⟨rest,
                  file ++ (content mem v).take n⟩)) := by
  rcases writeAllVector_progress mem autoRestart responses v
      file hLegal with
    ⟨v', hRun, hBytes⟩
  have hMoved := moved_le autoRestart v.leftTotal responses
    hLegal
  have hDone := ending_done_iff autoRestart v.leftTotal
    responses hLegal
  refine
    ⟨_, _, _, v', hRun, hMoved, hBytes, ?_, ?_, ?_⟩
  · intro hReturned
    rw [ending_returned_iff] at hReturned
    by_cases hLeft : 0 < v.leftTotal
    · exact (hDone hLeft).mp hReturned
    · omega
  · intro hLeft hAll
    rw [ending_returned_iff]
    exact (hDone hLeft).mpr hAll
  · intro r hContent
    have hLength : r.iovLen.toNat = v.leftTotal := by
      have hBoth := congrArg List.length hContent
      rw [length_content, length_content] at hBoth
      simpa using hBoth
    constructor
    · intro hLeft
      have hZero : r.iovLen = 0 := by
        apply UInt64.toNat_inj.mp
        rw [hLength, hLeft, UInt64.toNat_zero]
      rw [writeAll_eq, if_pos hZero]
    · intro hLeft
      have hFlat :=
        writeAll_progress mem autoRestart responses
          r.iovBase r.iovLen file (by omega)
          (by
            rw [hLength]
            exact hLegal)
      unfold Writes at hFlat
      rw [hLength] at hFlat
      have hRegion :
          (⟨r.iovBase, r.iovLen⟩ : IOMemoryRegion) = r := rfl
      rw [hRegion, hContent] at hFlat
      exact ⟨_, ⟨_, rfl, rfl⟩, hFlat⟩

end Writing

/-
  Two regions, a short write that ends inside the second, an
  interrupted call and the rest.
-/
theorem writeAllVector_transfers_resumed :
    ∃ outcome rest n v',
      writeAllVector (fun a => a.toUInt8) true
          ⟨⟨[.ok 3, .error .interrupted, .ok 1], []⟩,
            [⟨0x10, 2⟩, ⟨0x20, 2⟩]⟩ =
        (outcome,
          ⟨⟨rest,
            [] ++ (content (fun a => a.toUInt8)
              [⟨0x10, 2⟩, ⟨0x20, 2⟩]).take n⟩, v'⟩) ∧
      n ≤ 4 := by
  rcases writeAllVector_transfers (fun a => a.toUInt8) true
      [⟨0x10, 2⟩, ⟨0x20, 2⟩]
      [.ok 3, .error .interrupted, .ok 1] []
      (by
        refine ⟨by decide, by decide, fun _ => ?_⟩
        intro _
        exact ⟨by decide, by decide, fun _ => trivial⟩) with
    ⟨outcome, rest, n, v', hRun, hMoved, -⟩
  exact ⟨outcome, rest, n, v', hRun, hMoved⟩

/-
  For a vector without any byte the whole content is
  transferred before the first call; the vectored call
  still asks the kernel and throws when that fails, where
  the flat call returns.
-/
theorem writeAllVector_empty_fails :
    Legal true (IOVector.leftTotal [])
        [.error Errno.badFd] ∧
      content (fun _ => 0) [] = [] ∧
      writeAllVector (fun _ => 0) true
          ⟨⟨[.error .badFd], []⟩, []⟩ =
        (.raised (.apiError .badFd (str "writev()")),
          ⟨⟨[], []⟩, []⟩) ∧
      writeAll (fun _ => 0) true 0 0
          ⟨[.error .badFd], []⟩ =
        (.returned (), ⟨[.error .badFd], []⟩) := by
  refine ⟨fun hRestart => ?_, rfl, ?_, ?_⟩
  · exact absurd hRestart (by decide)
  · rw [writeAllVector_eq,
      run_writeVector_error _ _
        (rfl : handleIOError true "writev()" Errno.badFd =
          .error (.apiError .badFd (str "writev()")))]
  · rw [writeAll_eq, if_pos rfl]

end StreamIO

end Cosmos
