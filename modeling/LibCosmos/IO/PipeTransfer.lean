import LibCosmos.Foundation.Framing
import LibCosmos.IO.StreamRead
import LibCosmos.IO.Pipe

/-
  Messages over a `Pipe` (`src/io/Pipe.cxx`,
  `src/io/StreamIO.cxx`): one side sends them with
  `writeAll`, the other one collects data with `readAll`.

  The pipe is opened with `O_DIRECT`: what a `write` puts
  into it is kept apart in packets, and a `read` gets one of
  them, without what does not fit the buffer.

  Main declarations:
    * `PipeTransfer.writeRound`, `PipeTransfer.readRound`,
      one round of the loops
    * `PipeTransfer.Session`, `PipeTransfer.Step`
    * `PipeTransfer.Step.channel`, sessions are channels
    * `PipeTransfer.delivers`, `PipeTransfer.completes`,
      `PipeTransfer.framed_of_all_read`
-/

namespace Cosmos

namespace PipeTransfer

open StreamIO Framing

------------------------------------------------------------
-- Rounds of the Loops
------------------------------------------------------------

/- A round of `writeAll` on the data that is left. -/
def writeRound
    (autoRestart : Bool) (left : List Byte) :
    Sys UInt64 → Except Exn (List Byte)
| .ok res => .ok (left.drop res.toNat)
| .error e =>
    match handleIOError autoRestart "write()" e with
    | .ok () => .ok left
    | .error ex => .error ex

def unexpectedEOF : Exn :=
  .runtimeError (str "unexpected EOF")

/-
  A round of `readAll` on what was read and the length that
  is left.
-/
def readRound
    (autoRestart : Bool) (got : List Byte) (left : Nat) :
    Sys (List Byte) → Except Exn (List Byte × Nat)
| .ok data =>
    if data.length = 0 then .error unexpectedEOF
    else .ok (got ++ data, left - data.length)
| .error e =>
    match handleIOError autoRestart "read()" e with
    | .ok () => .ok (got, left)
    | .error ex => .error ex

/-
  The loop of `writeAll` goes from round to round: what it
  does on an answer and the rest is what it does on the rest
  after the round.
-/
theorem writeAll_round
    (mem : Memory) (autoRestart : Bool)
    {buf length : UInt64} (hSome : length ≠ 0)
    {answer : Sys UInt64}
    (hFits : ∀ n, answer = .ok n → n ≤ length)
    (rest : List (Sys UInt64)) (file : List Byte) :
    match
        writeRound autoRestart
          (content mem [⟨buf, length⟩]) answer with
    | .ok left =>
        ∃ buf' length' file',
          content mem [⟨buf', length'⟩] = left ∧
            file' ++ left =
              file ++ content mem [⟨buf, length⟩] ∧
            writeAll mem autoRestart buf length
                ⟨answer :: rest, file⟩ =
              writeAll mem autoRestart buf' length'
                ⟨rest, file'⟩
    | .error ex =>
        writeAll mem autoRestart buf length
            ⟨answer :: rest, file⟩ =
          (.raised ex, ⟨rest, file⟩) := by
  cases answer with
  | ok n =>
      have hLe := UInt64.le_iff_toNat_le.mp (hFits n rfl)
      refine ⟨buf + n, length - n,
        file ++ (content mem [⟨buf, length⟩]).take n.toNat,
        content_advance mem buf hLe, ?_, ?_⟩
      · rw [List.append_assoc, List.take_append_drop]
      · rw [writeAll_eq, if_neg hSome]
        rfl
  | error e =>
      rcases handleIOError_cases autoRestart e with
        hOk | hError
      · simp only [writeRound, hOk]
        refine ⟨buf, length, file, rfl, rfl, ?_⟩
        rw [writeAll_eq, if_neg hSome, writeAll_eq,
          if_neg hSome]
        simp only [write,
          run_call_restart autoRestart (hOk "write()")]
      · simp only [writeRound, hError]
        rw [writeAll_eq, if_neg hSome]
        simp only [write,
          run_call_error autoRestart (hError "write()")]

/- The bytes that a `read` of `n` bytes gets from a file. -/
def received
    (stream : Nat → Byte) (pos n : Nat) : List Byte :=
  (List.range' pos n).map stream

/- The loop of `readAll`, likewise. -/
theorem readAll_round
    (stream : Nat → Byte) (autoRestart : Bool)
    {buf length : UInt64} (hSome : length ≠ 0)
    {answer : Sys UInt64}
    (hFits : ∀ n, answer = .ok n → n ≤ length)
    (rest : List (Sys UInt64)) (pos : Nat)
    (memory : Memory) (got : List Byte) :
    match
        readRound autoRestart got length.toNat
          (answer.map fun n =>
            received stream pos n.toNat) with
    | .ok (got', left) =>
        ∃ buf' length' n,
          length'.toNat = left ∧
            got' = got ++ received stream pos n ∧
            readAll stream autoRestart buf length
                ⟨answer :: rest, pos, memory⟩ =
              readAll stream autoRestart buf' length'
                ⟨rest, pos + n,
                  fill stream
                    ((IOMemoryRegion.bytes
                      ⟨buf, length⟩).take n) pos memory⟩
    | .error ex =>
        readAll stream autoRestart buf length
            ⟨answer :: rest, pos, memory⟩ =
          (.raised ex, ⟨rest, pos, memory⟩) := by
  cases answer with
  | ok n =>
      have hLe := hFits n rfl
      have hSub := UInt64.toNat_sub_of_le _ _ hLe
      have hLength :
          (received stream pos n.toNat).length =
            n.toNat := by
        simp [received]
      simp only [Except.map, readRound, hLength]
      by_cases hZero : n = 0
      · rw [hZero]
        simp only [UInt64.toNat_zero, if_true]
        rw [readAll_eq, if_neg hSome, run_read_ok]
        simp [fill, unexpectedEOF]
      · have hPos : n.toNat ≠ 0 := fun hNat =>
          hZero (UInt64.toNat_inj.mp hNat)
        simp only [hPos, if_false]
        refine
          ⟨buf + n, length - n, n.toNat, hSub, rfl, ?_⟩
        rw [readAll_eq, if_neg hSome, run_read_ok]
        simp only [hZero, if_false]
  | error e =>
      rcases handleIOError_cases autoRestart e with
        hOk | hError
      · simp only [Except.map, readRound, hOk]
        refine ⟨buf, length, 0, rfl, ?_, ?_⟩
        · simp [received]
        · rw [readAll_eq, if_neg hSome, readAll_eq,
            if_neg hSome]
          simp only [List.take_zero, StreamIO.read, fill,
            Nat.add_zero,
            run_readCall_restart stream autoRestart
              (hOk "read()")]
      · simp only [Except.map, readRound, hError]
        rw [readAll_eq, if_neg hSome]
        simp only
          [run_readCall_error stream autoRestart
            (hError "read()"), StreamIO.read]

------------------------------------------------------------
-- The Kernel
------------------------------------------------------------

theorem maxAtomicWriteSize_pos :
    0 < Pipe.maxAtomicWriteSize := by
  decide

/-
  The answers to `write`: what is accepted of the data goes
  into packets of at most `PIPE_BUF` bytes.
-/
inductive Writes (queue : List (List Byte))
    (data : List Byte) :
    Sys UInt64 → List (List Byte) → Prop
| accept {n : UInt64}
    (hSome : 0 < n.toNat) (hLe : n.toNat ≤ data.length) :
    Writes queue data (.ok n)
      (queue ++
        Packets.split maxAtomicWriteSize_pos
          (data.take n.toNat))
| refuse (e : Errno) :
    Writes queue data (.error e) queue

/- What fits into one packet is one. -/
theorem writes_packet
    (queue : List (List Byte)) {data : List Byte}
    {n : UInt64}
    (hSome : 0 < n.toNat) (hLe : n.toNat ≤ data.length)
    (hFits : n.toNat ≤ Pipe.maxAtomicWriteSize) :
    Writes queue data (.ok n)
      (queue ++ [data.take n.toNat]) := by
  have hLength := List.length_take_of_le hLe
  have hNone : data.take n.toNat ≠ [] := by
    rw [← List.length_pos_iff, hLength]
    exact hSome
  have hOne :=
    Packets.split_of_le maxAtomicWriteSize_pos hNone
      (by rw [hLength]; exact hFits)
  rw [← hOne]
  exact .accept hSome hLe

/-
  The answers to `read`: the start of the first packet, the
  rest of which is lost, or the end of the file.
-/
inductive Reads (isOpen : Bool) (length : Nat) :
    List (List Byte) → Sys (List Byte) →
      List (List Byte) → Prop
| packet (p : List Byte) (queue : List (List Byte)) :
    Reads isOpen length (p :: queue) (.ok (p.take length))
      queue
| eof (hClosed : isOpen = false) :
    Reads isOpen length [] (.ok []) []
| refuse (queue : List (List Byte)) (e : Errno) :
    Reads isOpen length queue (.error e) queue

------------------------------------------------------------
-- Sessions
------------------------------------------------------------

/-
  `todo` has the data of the `writeAll` calls that have not
  returned, the first one as its loop has left it. `got` and
  the first of `wants` are the loop of the current `readAll`
  call, `out` is what earlier ones have read.
-/
structure Session where
  todo : List (List Byte)
  writerEx : Option Exn
  queue : List (List Byte)
  isOpen : Bool
  got : List Byte
  wants : List Nat
  out : List (List Byte)
  readerEx : Option Exn
deriving DecidableEq

namespace Session

def start
    (messages : List (List Byte)) (lengths : List Nat) :
    Session where
  todo := messages
  writerEx := none
  queue := []
  isOpen := true
  got := []
  wants := lengths
  out := []
  readerEx := none

/- The `while` conditions after a round. -/
def wrote
    (s : Session) (left : List Byte)
    (rest queue : List (List Byte)) : Session :=
  { s with
    todo := if left = [] then rest else left :: rest
    queue := queue }

def collected
    (s : Session) (got : List Byte) (left : Nat)
    (wants : List Nat) (queue : List (List Byte)) :
    Session :=
  if left = 0 then
    { s with got := [], wants := wants,
             out := s.out ++ [got], queue := queue }
  else
    { s with got := got, wants := left :: wants,
             queue := queue }

end Session

/- The two sides and the kernel, in any order. -/
inductive Step (autoRestart : Bool) :
    Session → Session → Prop
| write {s : Session} {data left : List Byte}
    {rest queue : List (List Byte)} {answer : Sys UInt64}
    (hRuns : s.writerEx = none) (hOpen : s.isOpen = true)
    (hTodo : s.todo = data :: rest) (hSome : data ≠ [])
    (hAnswer : Writes s.queue data answer queue)
    (hRound : writeRound autoRestart data answer = .ok left) :
    Step autoRestart s (s.wrote left rest queue)
| writeThrows {s : Session} {data : List Byte} {ex : Exn}
    {rest queue : List (List Byte)} {answer : Sys UInt64}
    (hRuns : s.writerEx = none)
    (hTodo : s.todo = data :: rest) (hSome : data ≠ [])
    (hAnswer : Writes s.queue data answer queue)
    (hRound :
      writeRound autoRestart data answer = .error ex) :
    Step autoRestart s { s with writerEx := some ex }
| writeNothing {s : Session} {rest : List (List Byte)}
    (hRuns : s.writerEx = none)
    (hTodo : s.todo = [] :: rest) :
    Step autoRestart s { s with todo := rest }
| closeWriteEnd {s : Session} (hOpen : s.isOpen = true) :
    Step autoRestart s { s with isOpen := false }
| read {s : Session} {want left : Nat} {wants : List Nat}
    {got : List Byte} {queue : List (List Byte)}
    {answer : Sys (List Byte)}
    (hRuns : s.readerEx = none)
    (hWants : s.wants = want :: wants) (hWant : want ≠ 0)
    (hAnswer : Reads s.isOpen want s.queue answer queue)
    (hRound :
      readRound autoRestart s.got want answer =
        .ok (got, left)) :
    Step autoRestart s (s.collected got left wants queue)
| readThrows {s : Session} {want : Nat} {wants : List Nat}
    {ex : Exn} {queue : List (List Byte)}
    {answer : Sys (List Byte)}
    (hRuns : s.readerEx = none)
    (hWants : s.wants = want :: wants) (hWant : want ≠ 0)
    (hAnswer : Reads s.isOpen want s.queue answer queue)
    (hRound :
      readRound autoRestart s.got want answer =
        .error ex) :
    Step autoRestart s
      { s with readerEx := some ex, queue := queue }
| readNothing {s : Session} {wants : List Nat}
    (hRuns : s.readerEx = none)
    (hWants : s.wants = 0 :: wants) :
    Step autoRestart s
      { s with got := [], wants := wants,
               out := s.out ++ [s.got] }

------------------------------------------------------------
-- Sessions Are Channels
------------------------------------------------------------

variable {autoRestart : Bool}

def Session.channel (s : Session) : Channel Byte where
  todo := s.todo
  queue := s.queue
  isOpen := s.isOpen
  got := s.got
  wants := s.wants
  out := s.out
  failed := s.readerEx.isSome

/- An error changes nothing, if the call goes on at all. -/
theorem writeRound_error
    {data left : List Byte} {e : Errno}
    (hRound :
      writeRound autoRestart data (.error e) = .ok left) :
    left = data := by
  simp only [writeRound] at hRound
  split at hRound
  · exact (Except.ok.inj hRound).symm
  · cases hRound

theorem readRound_error
    {got got' : List Byte} {left left' : Nat} {e : Errno}
    (hRound :
      readRound autoRestart got left (.error e) =
        .ok (got', left')) :
    got' = got ∧ left' = left := by
  simp only [readRound] at hRound
  split at hRound
  · cases hRound
    exact ⟨rfl, rfl⟩
  · cases hRound

/- What an answer with data makes of the loop variables. -/
theorem readRound_ok
    {got data : List Byte} (hSome : data ≠ []) (left : Nat) :
    readRound autoRestart got left (.ok data) =
      .ok (got ++ data, left - data.length) :=
  if_neg fun hZero => hSome (List.eq_nil_of_length_eq_zero hZero)

theorem channel_wrote
    (s : Session) (data : List Byte) (n : Nat)
    (rest queue : List (List Byte)) :
    (s.wrote (data.drop n) rest queue).channel =
      { s.channel with
        todo := Channel.left data n ++ rest
        queue := queue } := by
  unfold Session.wrote Session.channel Channel.left
  split <;> rfl

theorem channel_collected
    (s : Session) {want : Nat} {wants : List Nat}
    (hWants : s.wants = want :: wants)
    (p : List Byte) (queue : List (List Byte)) :
    (s.collected (s.got ++ p.take want)
        (want - (p.take want).length) wants queue).channel =
      { s.channel.receive p with queue := queue } := by
  have hLength :
      want - (p.take want).length = want - p.length := by
    rw [List.length_take]
    omega
  have hWants' : s.channel.wants = want :: wants := hWants
  rw [hLength]
  unfold Session.collected Channel.receive
  rw [hWants']
  by_cases hZero : want - p.length = 0
  · simp only [hZero, if_true]
    rfl
  · simp only [hZero, if_false]
    rfl

/-
  A step of a session is a step of its channel, or nothing
  that can be seen there.
-/
theorem Step.channel
    {s t : Session} (hStep : Step autoRestart s t)
    (hPackets : ∀ p ∈ s.queue, p ≠ []) :
    s.channel = t.channel ∨
      Framing.Step maxAtomicWriteSize_pos s.channel
        t.channel := by
  cases hStep with
  | @write data left rest queue answer hRuns hOpen hTodo
      hSome hAnswer hRound =>
      cases hAnswer with
      | @accept n hPos hLe =>
          cases hRound
          rw [channel_wrote]
          exact Or.inr (.write hOpen hTodo hPos hLe)
      | refuse e =>
          rw [writeRound_error hRound]
          refine Or.inl ?_
          simp [Session.wrote, Session.channel, hSome,
            hTodo]
  | writeThrows => exact Or.inl rfl
  | writeNothing hRuns hTodo =>
      exact Or.inr (.skip hTodo)
  | closeWriteEnd hOpen => exact Or.inr (.close hOpen)
  | @read want left wants got queue answer hRuns hWants
      hWant hAnswer hRound =>
      have hFailed : s.channel.failed = false := by
        simp [Session.channel, hRuns]
      have hPos := Nat.pos_of_ne_zero hWant
      generalize hQueue : s.queue = packets at hAnswer
      cases hAnswer with
      | packet p queue =>
          have hMem : p ∈ s.queue := by
            simp [hQueue]
          have hTake : p.take want ≠ [] := by
            simp [hWant, hPackets p hMem]
          rw [readRound_ok hTake] at hRound
          cases hRound
          rw [channel_collected s hWants]
          exact Or.inr (.read hFailed hWants hPos hQueue)
      | eof hClosed => cases hRound
      | refuse queue e =>
          rcases readRound_error hRound with ⟨rfl, rfl⟩
          refine Or.inl ?_
          simp [Session.collected, Session.channel, hWant,
            hWants, hQueue]
  | @readThrows want wants ex queue answer hRuns hWants
      hWant hAnswer hRound =>
      have hFailed : s.channel.failed = false := by
        simp [Session.channel, hRuns]
      have hPos := Nat.pos_of_ne_zero hWant
      generalize hQueue : s.queue = packets at hAnswer
      cases hAnswer with
      | packet p queue =>
          have hMem : p ∈ s.queue := by
            simp [hQueue]
          have hTake : p.take want ≠ [] := by
            simp [hWant, hPackets p hMem]
          rw [readRound_ok hTake] at hRound
          cases hRound
      | eof hClosed =>
          have hNew :
              Framing.Step maxAtomicWriteSize_pos
                s.channel _ :=
            .eof hFailed hWants hPos hQueue hClosed
          simpa [Session.channel, hQueue] using Or.inr hNew
      | refuse queue e =>
          have hNew :
              Framing.Step maxAtomicWriteSize_pos
                s.channel _ :=
            .abort hFailed
          rw [← hQueue]
          exact Or.inr hNew
  | readNothing hRuns hWants =>
      have hFailed : s.channel.failed = false := by
        simp [Session.channel, hRuns]
      exact Or.inr (.readNone hFailed hWants)

------------------------------------------------------------
-- Runs
------------------------------------------------------------

abbrev Run (autoRestart : Bool) :
    Session → Session → Prop :=
  Relation.ReflTransGen (Step autoRestart)

/- Whole messages are read, one or more at a time. -/
def Framed
    (messages : List (List Byte)) (lengths : List Nat) :
    Prop :=
  Aligned (messages.map List.length) lengths

theorem run_channel
    {messages : List (List Byte)} {lengths : List Nat}
    (hFramed : Framed messages lengths) {s : Session}
    (hRun : Run autoRestart (.start messages lengths) s) :
    s.channel.Framed ∧
      s.channel.outcome =
        cut lengths messages.flatten := by
  have hInv :
      s.channel.Framed ∧
        Relation.ReflTransGen
          (Framing.Step maxAtomicWriteSize_pos)
          (Channel.start messages lengths) s.channel := by
    induction hRun with
    | refl => exact ⟨Channel.framed_start hFramed, .refl⟩
    | tail _ hStep ih =>
        rcases hStep.channel ih.1.packets with hSame | hNext
        · rw [← hSame]
          exact ih
        · exact ⟨hNext.framed ih.1, ih.2.tail hNext⟩
  exact run_outcome hFramed hInv.2

/-
  Why `readAll` can throw: `read` failed, or the write end
  was closed before everything was written.
-/
def Excused (s : Session) : Prop :=
  ∀ ex, s.readerEx = some ex →
    (∃ e, ex = .apiError e (str "read()")) ∨
      ex = unexpectedEOF ∧ s.isOpen = false ∧
        s.todo.flatten ≠ []

theorem readRound_thrown
    {got : List Byte} {left : Nat} {e : Errno} {ex : Exn}
    (hRound :
      readRound autoRestart got left (.error e) =
        .error ex) :
    ex = .apiError e (str "read()") := by
  simp only [readRound] at hRound
  rcases handleIOError_cases autoRestart e with hOk | hError
  · rw [hOk] at hRound
    cases hRound
  · rw [hError] at hRound
    exact (Except.error.inj hRound).symm

theorem Step.excused
    {s t : Session} (hStep : Step autoRestart s t)
    (hFramed : s.channel.Framed) (hExcused : Excused s) :
    Excused t := by
  intro ex hEx
  cases hStep with
  | write hRuns hOpen hTodo hSome hAnswer hRound =>
      rcases hExcused ex hEx with hApi | ⟨-, hClosed, -⟩
      · exact Or.inl hApi
      · rw [hOpen] at hClosed
        cases hClosed
  | writeThrows => exact hExcused ex hEx
  | writeNothing hRuns hTodo =>
      rcases hExcused ex hEx with hApi | hEnd
      · exact Or.inl hApi
      · rw [hTodo, List.flatten_cons,
          List.nil_append] at hEnd
        exact Or.inr hEnd
  | closeWriteEnd hOpen =>
      rcases hExcused ex hEx with hApi | hEnd
      · exact Or.inl hApi
      · exact Or.inr ⟨hEnd.1, rfl, hEnd.2.2⟩
  | read hRuns hWants hWant hAnswer hRound =>
      unfold Session.collected at hEx
      rw [apply_ite Session.readerEx] at hEx
      simp [hRuns] at hEx
  | @readThrows want wants ex queue answer hRuns hWants
      hWant hAnswer hRound =>
      cases hEx
      generalize hQueue : s.queue = packets at hAnswer
      cases hAnswer with
      | packet p queue =>
          have hMem : p ∈ s.channel.queue := by
            simp [Session.channel, hQueue]
          have hTake : p.take want ≠ [] := by
            simp [hWant, hFramed.packets p hMem]
          rw [readRound_ok hTake] at hRound
          cases hRound
      | eof hClosed =>
          have hData :=
            hFramed.eof hWants (Nat.pos_of_ne_zero hWant)
              hQueue
          exact
            Or.inr
              ⟨(Except.error.inj hRound).symm, hClosed,
                hData⟩
      | refuse queue e =>
          exact Or.inl ⟨e, readRound_thrown hRound⟩
  | readNothing hRuns hWants =>
      rw [hRuns] at hEx
      cases hEx

theorem run_excused
    {messages : List (List Byte)} {lengths : List Nat}
    (hFramed : Framed messages lengths) {s : Session}
    (hRun : Run autoRestart (.start messages lengths) s) :
    Excused s := by
  induction hRun with
  | refl =>
      intro ex hEx
      cases hEx
  | tail hBefore hStep ih =>
      exact hStep.excused (run_channel hFramed hBefore).1 ih

/-
  If every `readAll` asks for whole messages then, whatever
  the two sides do in which order, however the kernel splits
  the transfers and whichever calls are interrupted or fail:
  each `readAll` that has returned got its part of the data,
  byte for byte, and the data of the current one is the
  start of its part. It throws only if `read` fails or the
  write end is closed too early.
-/
theorem delivers
    {messages : List (List Byte)} {lengths : List Nat}
    (hFramed : Framed messages lengths) {s : Session}
    (hRun : Run autoRestart (.start messages lengths) s) :
    s.out <+: cut lengths messages.flatten ∧
      (s.wants ≠ [] →
        ∃ piece,
          (cut lengths messages.flatten)[s.out.length]? =
              some piece ∧
            s.got <+: piece) ∧
      Excused s := by
  have hChannel := (run_channel hFramed hRun).2
  refine ⟨⟨_, hChannel⟩, ?_, ?_⟩
  · intro hMore
    rcases List.exists_cons_of_ne_nil hMore with
      ⟨want, wants, hWants⟩
    refine ⟨s.got ++ s.channel.pieces.flatten.take want,
      ?_, List.prefix_append _ _⟩
    rw [← hChannel]
    simp [Channel.outcome, Session.channel, hWants, resume]
  · exact run_excused hFramed hRun

/-
  Two messages of 2 and 3 bytes; the second one is written
  in two parts. The first `readAll` asks for both.
-/
def twoMessages : List (List Byte) := [[1, 2], [3, 4, 5]]

theorem run_twoMessages :
    ∃ s,
      Run true (.start twoMessages [5]) s ∧
        s.out = [[1, 2, 3, 4, 5]] := by
  have hTwo : Writes [] [1, 2] (.ok 2) [[1, 2]] :=
    writes_packet [] (by decide) (by decide) (by decide)
  have hOne : Writes [] [3, 4, 5] (.ok 1) [[3]] :=
    writes_packet [] (by decide) (by decide) (by decide)
  have hRest : Writes [[3]] [4, 5] (.ok 2) [[3], [4, 5]] :=
    writes_packet [[3]] (by decide) (by decide) (by decide)
  have hFive : (5 : Nat) ≠ 0 := by decide
  have hThree : (3 : Nat) ≠ 0 := by decide
  have hTail : (2 : Nat) ≠ 0 := by decide
  have hFirst :
      Step true (.start twoMessages [5])
        ((Session.start twoMessages [5]).wrote []
          [[3, 4, 5]] [[1, 2]]) :=
    .write rfl rfl rfl (List.cons_ne_nil 1 [2]) hTwo rfl
  refine ⟨_, .tail (.tail (.tail (.tail (.tail
    (.single hFirst)
    (.read rfl rfl hFive (.packet [1, 2] []) rfl))
    (.write rfl rfl rfl (List.cons_ne_nil 3 _) hOne rfl))
    (.write rfl rfl rfl (List.cons_ne_nil 4 _) hRest rfl))
    (.read rfl rfl hThree (.packet [3] [[4, 5]]) rfl))
    (.read rfl rfl hTail (.packet [4, 5] []) rfl), ?_⟩
  rfl

theorem framed_twoMessages : Framed twoMessages [5] :=
  Aligned.cons [2, 3] (Aligned.nil [])

theorem delivers_twoMessages :
    [[1, 2, 3, 4, 5]] <+:
      cut [5] twoMessages.flatten := by
  rcases run_twoMessages with ⟨s, hRun, hOut⟩
  rw [← hOut]
  exact (delivers framed_twoMessages hRun).1

------------------------------------------------------------
-- Calm Runs
------------------------------------------------------------

/-
  No call throws because of an error, and the write end is
  closed when everything is written.
-/
structure Calm (autoRestart : Bool) (s t : Session) :
    Prop where
  step : Step autoRestart s t
  writes : t.writerEx = none
  reads : ∀ e, t.readerEx ≠ some (.apiError e (str "read()"))
  closes : t.isOpen = false → t.todo = []

theorem run_of_calm
    {s t : Session}
    (hRun : Relation.ReflTransGen (Calm autoRestart) s t) :
    Run autoRestart s t := by
  induction hRun with
  | refl => exact .refl
  | tail _ hCalm ih => exact ih.tail hCalm.step

/- What is true in every state of a calm run. -/
theorem calm_state
    {messages : List (List Byte)} {lengths : List Nat}
    {s : Session}
    (hRun :
      Relation.ReflTransGen (Calm autoRestart)
        (.start messages lengths) s) :
    s.writerEx = none ∧
      (∀ e,
        s.readerEx ≠ some (.apiError e (str "read()"))) ∧
      (s.isOpen = false → s.todo = []) := by
  cases hRun with
  | refl =>
      refine ⟨rfl, ?_, ?_⟩
      · intro e hEx
        cases hEx
      · intro hClosed
        cases hClosed
  | tail _ hCalm =>
      exact ⟨hCalm.writes, hCalm.reads, hCalm.closes⟩

theorem calm_readerEx
    {s : Session} (hExcused : Excused s)
    (hReads :
      ∀ e, s.readerEx ≠ some (.apiError e (str "read()")))
    (hCloses : s.isOpen = false → s.todo = []) :
    s.readerEx = none := by
  cases hEx : s.readerEx with
  | none => rfl
  | some ex =>
      rcases hExcused ex hEx with ⟨e, rfl⟩ | hEnd
      · exact absurd hEx (hReads e)
      · rw [hCloses hEnd.2.1] at hEnd
        exact absurd rfl hEnd.2.2

theorem Step.measure_le
    {s t : Session} (hStep : Step autoRestart s t)
    (hFramed : s.channel.Framed) :
    t.channel.measure ≤ s.channel.measure := by
  rcases hStep.channel hFramed.packets with hSame | hNext
  · rw [hSame]
  · exact Nat.le_of_lt (hNext.measure_lt hFramed)

/- A calm step that brings the transfer further. -/
def Advances (autoRestart : Bool) (s : Session) : Prop :=
  ∃ t, Calm autoRestart s t ∧
    t.channel.measure < s.channel.measure

theorem advances_readNothing
    {s : Session} (hFramed : s.channel.Framed)
    (hWriter : s.writerEx = none)
    (hReader : s.readerEx = none)
    (hCloses : s.isOpen = false → s.todo = [])
    {wants : List Nat} (hWants : s.wants = 0 :: wants) :
    Advances autoRestart s := by
  have hFailed : s.channel.failed = false := by
    simp [Session.channel, hReader]
  refine ⟨_, ⟨.readNothing hReader hWants, hWriter, ?_,
    hCloses⟩, ?_⟩
  · simp [hReader]
  · have hNext :
        Framing.Step maxAtomicWriteSize_pos s.channel _ :=
      .readNone hFailed hWants
    exact hNext.measure_lt hFramed

theorem advances_read
    {s : Session} (hFramed : s.channel.Framed)
    (hWriter : s.writerEx = none)
    (hReader : s.readerEx = none)
    (hCloses : s.isOpen = false → s.todo = [])
    {want : Nat} {wants : List Nat}
    (hWants : s.wants = want :: wants) (hWant : want ≠ 0)
    {p : List Byte} {queue : List (List Byte)}
    (hQueue : s.queue = p :: queue) :
    Advances autoRestart s := by
  have hFailed : s.channel.failed = false := by
    simp [Session.channel, hReader]
  have hMem : p ∈ s.channel.queue := by
    simp [Session.channel, hQueue]
  have hTake : p.take want ≠ [] := by
    simp [hWant, hFramed.packets p hMem]
  have hAnswer :
      Reads s.isOpen want s.queue (.ok (p.take want))
        queue := by
    rw [hQueue]
    exact .packet p queue
  refine ⟨_, ⟨.read hReader hWants hWant hAnswer
    (readRound_ok hTake want), ?_, ?_, ?_⟩, ?_⟩
  · unfold Session.collected
    split <;> exact hWriter
  · unfold Session.collected
    split <;> simp [hReader]
  · unfold Session.collected
    split <;> exact hCloses
  · rw [channel_collected s hWants]
    have hNext :
        Framing.Step maxAtomicWriteSize_pos s.channel _ :=
      .read hFailed hWants (Nat.pos_of_ne_zero hWant) hQueue
    exact hNext.measure_lt hFramed

theorem advances_write
    {s : Session} (hFramed : s.channel.Framed)
    (hWriter : s.writerEx = none)
    (hReader : s.readerEx = none)
    (hOpen : s.isOpen = true)
    {data : List Byte} {rest : List (List Byte)}
    (hTodo : s.todo = data :: rest) (hSome : data ≠ []) :
    Advances autoRestart s := by
  have hLe : (1 : UInt64).toNat ≤ data.length :=
    List.length_pos_iff.mpr hSome
  refine ⟨_, ⟨.write hWriter hOpen hTodo hSome
    (.accept (by decide) hLe) rfl, hWriter, ?_, ?_⟩, ?_⟩
  · simp [Session.wrote, hReader]
  · intro hClosed
    rw [Session.wrote, hOpen] at hClosed
    cases hClosed
  · rw [channel_wrote]
    have hNext :
        Framing.Step maxAtomicWriteSize_pos s.channel _ :=
      .write hOpen hTodo (by decide) hLe
    exact hNext.measure_lt hFramed

theorem advances_writeNothing
    {s : Session} (hFramed : s.channel.Framed)
    (hWriter : s.writerEx = none)
    (hReader : s.readerEx = none)
    (hOpen : s.isOpen = true)
    {rest : List (List Byte)}
    (hTodo : s.todo = [] :: rest) :
    Advances autoRestart s := by
  refine ⟨_, ⟨.writeNothing hWriter hTodo, hWriter, ?_,
    ?_⟩, ?_⟩
  · simp [hReader]
  · intro hClosed
    rw [hOpen] at hClosed
    cases hClosed
  · have hNext :
        Framing.Step maxAtomicWriteSize_pos s.channel _ :=
      .skip hTodo
    exact hNext.measure_lt hFramed

/-
  A calm run gets everything through: nothing is thrown, and
  until every `readAll` has returned its part a step is
  possible that brings the transfer further. No step sets it
  back.
-/
theorem completes
    {messages : List (List Byte)} {lengths : List Nat}
    (hFramed : Framed messages lengths) {s : Session}
    (hRun :
      Relation.ReflTransGen (Calm autoRestart)
        (.start messages lengths) s) :
    s.writerEx = none ∧ s.readerEx = none ∧
      (s.out = cut lengths messages.flatten ∨
        Advances autoRestart s) ∧
      ∀ t, Calm autoRestart s t →
        t.channel.measure ≤ s.channel.measure := by
  rcases run_channel hFramed (run_of_calm hRun) with
    ⟨hChannel, hOutcome⟩
  rcases calm_state hRun with ⟨hWriter, hReads, hCloses⟩
  have hReader :=
    calm_readerEx (run_excused hFramed (run_of_calm hRun))
      hReads hCloses
  refine ⟨hWriter, hReader, ?_, ?_⟩
  · cases hWants : s.wants with
    | nil =>
        refine Or.inl ?_
        rw [← hOutcome]
        simp [Channel.outcome, Session.channel, hWants,
          resume]
    | cons want wants =>
        refine Or.inr ?_
        by_cases hWant : want = 0
        · rw [hWant] at hWants
          exact
            advances_readNothing hChannel hWriter hReader
              hCloses hWants
        · cases hQueue : s.queue with
          | cons p queue =>
              exact
                advances_read hChannel hWriter hReader
                  hCloses hWants hWant hQueue
          | nil =>
              have hData :=
                hChannel.eof hWants
                  (Nat.pos_of_ne_zero hWant) hQueue
              have hOpen : s.isOpen = true := by
                by_contra hClosed
                apply hData
                rw [Session.channel,
                  hCloses (Bool.eq_false_iff.mpr hClosed)]
                rfl
              cases hTodo : s.todo with
              | nil =>
                  exact
                    absurd
                      (by rw [Session.channel, hTodo]; rfl)
                      hData
              | cons data rest =>
                  by_cases hNone : data = []
                  · rw [hNone] at hTodo
                    exact
                      advances_writeNothing hChannel hWriter
                        hReader hOpen hTodo
                  · exact
                      advances_write hChannel hWriter
                        hReader hOpen hTodo hNone
  · intro t hCalm
    exact hCalm.step.measure_le hChannel

/- The transfer when the first message was read. -/
theorem completes_twoMessages :
    ∃ s,
      Relation.ReflTransGen (Calm true)
          (.start twoMessages [5]) s ∧
        s.got = [1, 2] ∧ s.out = [] ∧ Advances true s := by
  have hTwo : Writes [] [1, 2] (.ok 2) [[1, 2]] :=
    writes_packet [] (by decide) (by decide) (by decide)
  have hFive : (5 : Nat) ≠ 0 := by decide
  have hFirst :
      Calm true (.start twoMessages [5])
        ((Session.start twoMessages [5]).wrote []
          [[3, 4, 5]] [[1, 2]]) :=
    { step :=
        .write rfl rfl rfl (List.cons_ne_nil 1 [2]) hTwo rfl
      writes := rfl
      reads := fun _ hEx => by cases hEx
      closes := fun hClosed => by cases hClosed }
  have hSecond :
      Calm true
        ((Session.start twoMessages [5]).wrote []
          [[3, 4, 5]] [[1, 2]])
        _ :=
    { step := .read rfl rfl hFive (.packet [1, 2] []) rfl
      writes := rfl
      reads := fun _ hEx => by cases hEx
      closes := fun hClosed => by cases hClosed }
  have hRun :=
    (Relation.ReflTransGen.single hFirst).tail hSecond
  refine ⟨_, hRun, rfl, rfl, ?_⟩
  rcases (completes framed_twoMessages hRun).2.2.1 with
    hDone | hMore
  · exact absurd hDone (by decide)
  · exact hMore

------------------------------------------------------------
-- Other Lengths
------------------------------------------------------------

/- Steps that put a message into the pipe as one packet. -/
def StepWhole (autoRestart : Bool) (s t : Session) : Prop :=
  Step autoRestart s t ∧ Undivided s.channel t.channel

theorem run_whole
    {messages : List (List Byte)} {lengths : List Nat}
    {s : Session}
    (hRun :
      Relation.ReflTransGen (StepWhole autoRestart)
        (.start messages lengths) s) :
    (∀ p ∈ s.queue, p ≠ []) ∧
      WholeRun maxAtomicWriteSize_pos
        (Channel.start messages lengths) s.channel := by
  induction hRun with
  | refl => exact ⟨by simp [Session.start], .refl⟩
  | tail _ hStep ih =>
      rcases hStep.1.channel ih.1 with hSame | hNext
      · have hQueue := congrArg Channel.queue hSame
        refine ⟨?_, ?_⟩
        · intro p hMem
          apply ih.1 p
          simp only [Session.channel] at hQueue
          rw [hQueue]
          exact hMem
        · rw [← hSame]
          exact ih.2
      · exact
          ⟨hNext.packets ih.1, ih.2.tail ⟨hNext, hStep.2⟩⟩

/-
  Without divided messages the lengths that add up to the
  data and can all be read are those of whole messages: a
  `readAll` that ends inside of a message loses the rest of
  it, and some `readAll` never returns.
-/
theorem framed_of_all_read
    {messages : List (List Byte)} {lengths : List Nat}
    (hTotal : lengths.sum = messages.flatten.length)
    {s : Session}
    (hRun :
      Relation.ReflTransGen (StepWhole autoRestart)
        (.start messages lengths) s)
    (hDone : s.wants = []) :
    Framed messages lengths := by
  have hSupply :
      (Channel.start messages lengths).supply =
        (Channel.start messages lengths).demand := by
    simp only [Channel.supply, Channel.demand,
      Channel.start, Channel.pieces, List.nil_append]
    rw [hTotal, List.length_flatten]
  exact (run_whole hRun).2.aligned hDone hSupply

theorem framed_of_all_read_oneMessage :
    Framed [[7, 8]] [2] := by
  have hWrites : Writes [] [7, 8] (.ok 2) [[7, 8]] :=
    writes_packet [] (by decide) (by decide) (by decide)
  have hTwo : (2 : Nat) ≠ 0 := by decide
  have hFirst :
      Step true (.start [[7, 8]] [2])
        ((Session.start [[7, 8]] [2]).wrote [] []
          [[7, 8]]) :=
    .write rfl rfl rfl (List.cons_ne_nil 7 [8]) hWrites rfl
  have hSecond :
      Step true
        ((Session.start [[7, 8]] [2]).wrote [] [] [[7, 8]])
        _ :=
    .read rfl rfl hTwo (.packet [7, 8] []) rfl
  exact
    framed_of_all_read rfl
      (.tail (.single ⟨hFirst, Or.inr ⟨[7, 8], rfl, rfl⟩⟩)
        ⟨hSecond, Or.inl rfl⟩)
      rfl

end PipeTransfer

end Cosmos
