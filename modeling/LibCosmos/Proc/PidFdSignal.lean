import LibCosmos.Core.BitMask
import LibCosmos.Core.Strip
import LibCosmos.Error.CosmosError
import LibCosmos.FS.FileDescriptor

/-
  Sending signals to the process of a pidfd, where the
  system call is not at hand (`src/proc/signal.cxx`).

  The PID is looked up in a text of the kernel then, and
  `kill()` gets it.

  Main declarations:
    * `stoi`, `stoi_decimal`
    * `PidFdSignal.kill`, `PidFdSignal.pidfdSendSignal`
    * `PidFdSignal.send`
    * `PidFdSignal.Right`, `PidFdSignal.Fit`
    * `PidFdSignal.sent_right_iff`
-/

namespace Cosmos

open Numerals

------------------------------------------------------------
-- Numbers in Text
------------------------------------------------------------

def isDigit (c : Byte) : Bool :=
  48 ≤ c && c ≤ 57

/- The sign in front of a number. -/
def sign : Str → Bool × Str
| 45 :: rest => (true, rest)
| 43 :: rest => (false, rest)
| text => (false, text)

/-
  `std::stoi`: the number in front and how many characters
  were processed.
-/
def stoi (isspace : Byte → Bool) (text : Str) :
    Except Exn (Int32 × Nat) :=
  let body := sign (text.dropWhile isspace)
  let digits := body.2.takeWhile isDigit
  match parse 10 digits with
  | none => .error (.stdException (str "stoi"))
  | some n =>
      let value : Int := if body.1 then -n else n
      if value < -2 ^ 31 ∨ 2 ^ 31 ≤ value then
        .error (.stdException (str "stoi"))
      else
        .ok
          (Int32.ofInt value,
            text.length - body.2.length + digits.length)

namespace PidFdSignal

------------------------------------------------------------
-- The Kernel
------------------------------------------------------------

/-
  A process as the caller sees it, alive or a zombie. Its
  PID is zero if it has none in the caller's namespace. Some
  processes are left out when all are signalled.
-/
structure Process where
  ident : Nat
  pid : Int32
  group : Int32
  permitted : Bool
  exempt : Bool
deriving DecidableEq, Repr

/-
  All processes that were not reaped, the process group of
  the caller, and the flags for `pidfd_send_signal()` that
  are known.
-/
structure System where
  processes : List Process
  callerGroup : Int32
  knownFlags : BitVec 32
  pids : ∀ p ∈ processes, 0 ≤ p.pid
  sameIdent :
    ∀ p ∈ processes, ∀ q ∈ processes,
      p.ident = q.ident → p = q
  samePid :
    ∀ p ∈ processes, ∀ q ∈ processes,
      p.pid = q.pid → p.pid ≠ 0 → p = q

/- Zero is the null signal, which only checks. -/
def validSignal (sig : Int32) : Bool :=
  0 ≤ sig && sig ≤ 64

def noSuchProcess : Errno := ⟨3⟩
def notPermitted : Errno := ⟨1⟩

/- Who gets a signal that is meant for these processes. -/
def deliver (sig : Int32) (recipients : List Process) :
    Sys (List Nat) :=
  if validSignal sig = false then .error .invalidArg
  else if recipients = [] then .error noSuchProcess
  else
    match recipients.filter fun p => p.permitted with
    | [] => .error notPermitted
    | permitted => .ok (permitted.map fun p => p.ident)

/- The processes that the first argument of `kill()` means. -/
def recipients (sys : System) (n : Int32) : List Process :=
  sys.processes.filter fun p =>
    p.pid != 0 &&
      if 0 < n then p.pid == n
      else if n = 0 then p.group == sys.callerGroup
      else if n = -1 then !p.exempt
      else p.group == -n

/- `::kill`. -/
def kill (sys : System) (n sig : Int32) : Sys (List Nat) :=
  deliver sig (recipients sys n)

abbrev SendFlags : Type := BitMask 32

def flagThread : BitVec 32 := 1
def flagThreadGroup : BitVec 32 := 2
def flagProcessGroup : BitVec 32 := 4

/- At most one flag, and one that is known. -/
def usable (sys : System) (flags : SendFlags) : Bool :=
  flags.raw &&& ~~~sys.knownFlags == 0 &&
    (flags.raw == 0 || flags.raw == flagThread ||
      flags.raw == flagThreadGroup ||
      flags.raw == flagProcessGroup)

/- The processes of a group. -/
def members (sys : System) (n : Int32) : List Process :=
  sys.processes.filter fun p => p.group == n

/-
  `::pidfd_send_signal` for the pidfd of a process. The
  process may have been reaped, and it has to be in the
  namespace of the caller.
-/
def pidfdSendSignal (sys : System) (target : Nat)
    (sig : Int32) (flags : SendFlags) : Sys (List Nat) :=
  if usable sys flags = false then .error .invalidArg
  else
    match
      sys.processes.find? fun p => p.ident == target
    with
    | none => .error noSuchProcess
    | some p =>
        if p.pid = 0 then .error .invalidArg
        else if flags.raw = flagProcessGroup then
          deliver sig (members sys p.pid)
        else deliver sig [p]

/- The number in the "Pid:" line of the pidfd. -/
def pidField (sys : System) (target : Nat) : Int32 :=
  match sys.processes.find? fun p => p.ident == target with
  | none => -1
  | some p => p.pid

------------------------------------------------------------
-- The Code
------------------------------------------------------------

/- The processes that got a signal. -/
abbrev Log : Type := List Nat

/- A system call that sends signals. -/
def signalling (label : String) (answer : Sys (List Nat)) :
    Method Log Unit :=
  match answer with
  | .error e => throwApi e label
  | .ok got => Command.modify fun log => log ++ got

/- `send(ProcessID, Signal)`. -/
def sendProcess (sys : System) (proc sig : Int32) :
    Method Log Unit :=
  signalling "kill()" (kill sys proc sig)

/- The lines for which the stream is still good. -/
def goodLines : Str → Str → List Str
| _, [] => []
| line, c :: rest =>
    if c = 10 then line :: goodLines [] rest
    else goodLines (line ++ [c]) rest

/- `PID_FIELD`. -/
def fieldName : Str := str "Pid:"

section Code

variable (isspace : Byte → Bool) (sys : System)
variable (sig : Int32)

def sendParsed (pid : Int32) (processed : Nat) :
    Method Log Unit :=
  if processed < 1 then
    Command.raise
      (.runtimeError
        (str (
          "failed to determine PID for PIDFD " ++
          "(valgrind fallback logic)")))
  else sendProcess sys pid sig

def sendLine (line : Str) : Method Log Unit :=
  let pidStr :=
    Split.strip isspace (line.drop fieldName.length) []
  match stoi isspace pidStr with
  | .error ex => Command.raise ex
  | .ok (pid, processed) => sendParsed sys sig pid processed

def sendLines : List Str → Method Log Unit
| [] =>
    Command.raise
      (.runtimeError
        (str (
          "couldn't parse PID for PIDFD " ++
          "(valgrind fallback logic)")))
| line :: rest =>
    if fieldName.isPrefixOf line then
      sendLine isspace sys sig line
    else sendLines rest

/-
  `send(PidFD, Signal, SendFlags)`. The text is there if the
  file could be opened.
-/
def send (valgrind : Bool) (target : Nat)
    (flags : SendFlags) (fdinfo : Sys Str) :
    Method Log Unit :=
  if valgrind then
    match fdinfo with
    | .error e =>
        throwApi e "open(\"/proc/self/fdinfo/<pidfd>\")"
    | .ok text =>
        sendLines isspace sys sig (goodLines [] text)
  else
    signalling "pidfd_send_signal()"
      (pidfdSendSignal sys target sig flags)

end Code

------------------------------------------------------------
-- The Promise
------------------------------------------------------------

/- `std::isspace`, as it is in every locale. -/
structure SpaceClass where
  isspace : Byte → Bool
  tab : isspace 9 = true
  minus : isspace 45 = false
  digit : ∀ c, isDigit c = true → isspace c = false

/-
  The text of a pidfd: the lines in front of the "Pid:" line
  and whatever follows.
-/
structure Fdinfo where
  before : List Str
  rest : Str
  whole : ∀ line ∈ before, 10 ∉ line
  other : ∀ line ∈ before, ¬ fieldName <+: line

def pidLine (n : Int32) : Str :=
  fieldName ++ 9 :: decimal n

def Fdinfo.text (info : Fdinfo) (n : Int32) : Str :=
  (info.before.flatMap fun line => line ++ [10]) ++
    (pidLine n ++ 10 :: info.rest)

/- The call without the system call. -/
def fallback (space : SpaceClass) (sys : System)
    (target : Nat) (sig : Int32) (flags : SendFlags)
    (info : Fdinfo) : Outcome Halt Exn Unit × Log :=
  (send space.isspace sys sig true target flags
    (.ok (info.text (pidField sys target)))).run []

/-
  The signal goes to the process of the pidfd or the call
  throws, no other process gets one, and the call succeeds
  just if the system call does.
-/
structure Right (space : SpaceClass) (sys : System)
    (target : Nat) (sig : Int32) (flags : SendFlags)
    (info : Fdinfo) : Prop where
  others :
    ∀ x ∈ (fallback space sys target sig flags info).2,
      x = target
  delivered :
    (fallback space sys target sig flags info).1 =
        .returned () →
      target ∈ (fallback space sys target sig flags info).2
  succeeds :
    (fallback space sys target sig flags info).1 =
        .returned () ↔
      ∃ got,
        pidfdSendSignal sys target sig flags = .ok got

/- Some of these processes may get this signal. -/
def Permitted (sig : Int32) (processes : List Process) :
    Prop :=
  validSignal sig = true ∧ ∃ p ∈ processes, p.permitted

/-
  The process has a PID, and the flags are usable and do not
  ask for a process group that differs in whether it may be
  signalled; otherwise there is nobody whom `kill()` could
  signal.
-/
def Fit (sys : System) (target : Nat) (sig : Int32)
    (flags : SendFlags) : Prop :=
  let n := pidField sys target
  if 0 < n ∧ usable sys flags then
    flags.raw = flagProcessGroup →
      (Permitted sig (members sys n) ↔
        Permitted sig (recipients sys n))
  else ¬ Permitted sig (recipients sys n)

------------------------------------------------------------
-- Numbers That Were Printed
------------------------------------------------------------

theorem isDigit_of_mem
    {n : Nat} {c : Byte} (hMem : c ∈ digitText 10 false n) :
    isDigit c = true := by
  unfold digitText at hMem
  by_cases hZero : n = 0
  · rw [if_pos hZero, List.mem_singleton] at hMem
    rw [hMem]
    decide
  · rw [if_neg hZero, List.mem_map] at hMem
    rcases hMem with ⟨d, hDigit, rfl⟩
    have hSmall :=
      Nat.digits_lt_base (by decide : 1 < 10)
        (List.mem_reverse.mp hDigit)
    have hAll :
        ∀ k : Fin 10, isDigit (digitChar false k) = true := by
      decide
    exact hAll ⟨d, hSmall⟩

theorem mem_decimal
    {n : Int32} {c : Byte} (hMem : c ∈ decimal n) :
    c = 45 ∨ isDigit c = true := by
  unfold decimal at hMem
  rcases List.mem_append.mp hMem with hSign | hDigit
  · split at hSign
    · exact Or.inl (List.mem_singleton.mp hSign)
    · cases hSign
  · exact Or.inr (isDigit_of_mem hDigit)

theorem not_space_of_mem
    (space : SpaceClass) {n : Int32} {c : Byte}
    (hMem : c ∈ decimal n) : space.isspace c = false := by
  rcases mem_decimal hMem with rfl | hDigit
  · exact space.minus
  · exact space.digit c hDigit

/- An `int` that was printed is read back. -/
theorem stoi_decimal (space : SpaceClass) (n : Int32) :
    ∃ processed, 0 < processed ∧
      stoi space.isspace (decimal n) =
        .ok (n, processed) := by
  have hSpace :
      (decimal n).dropWhile space.isspace = decimal n := by
    apply Trim.dropWhile_of_head
    intro c hHead
    exact not_space_of_mem space (List.mem_of_head? hHead)
  have hSign :
      sign (decimal n) =
        (decide (n < 0),
          digitText 10 false n.toInt.natAbs) := by
    unfold decimal
    by_cases hNegative : n < 0
    · rw [if_pos hNegative, decide_eq_true hNegative]
      rfl
    · rw [if_neg hNegative, decide_eq_false hNegative,
        List.nil_append]
      cases hText : digitText 10 false n.toInt.natAbs with
      | nil => rfl
      | cons c rest =>
          have hDigit : isDigit c = true := by
            apply isDigit_of_mem
            rw [hText]
            exact List.mem_cons_self
          unfold sign
          split
          · next hSame =>
              cases hSame
              cases hDigit
          · next hSame =>
              cases hSame
              cases hDigit
          · rfl
  have hDigits :
      (digitText 10 false n.toInt.natAbs).takeWhile isDigit =
        digitText 10 false n.toInt.natAbs :=
    List.takeWhile_eq_self_iff.mpr fun c => isDigit_of_mem
  have hParse :
      parse 10 (digitText 10 false n.toInt.natAbs) =
        some n.toInt.natAbs := by
    have hPadded :=
      @parse_padded 10 (by decide) (by decide) false 0
        n.toInt.natAbs
    unfold padded at hPadded
    rw [Nat.zero_sub] at hPadded
    exact hPadded
  have hValue :
      (if decide (n < 0) = true then
        -(n.toInt.natAbs : Int) else n.toInt.natAbs) =
        n.toInt := by
    by_cases hNegative : n < 0
    · have hBelow : n.toInt < 0 :=
        Int32.lt_iff_toInt_lt.mp hNegative
      rw [if_pos (decide_eq_true hNegative)]
      omega
    · have hAbove : ¬ n.toInt < 0 := fun hBelow =>
        hNegative (Int32.lt_iff_toInt_lt.mpr hBelow)
      rw [if_neg (by simp [hNegative])]
      omega
  have hLow := n.le_toInt
  have hHigh := n.toInt_lt
  have hLength :
      0 < (digitText 10 false n.toInt.natAbs).length :=
    List.length_pos_of_ne_nil (digitText_ne_nil _ _ _)
  unfold stoi
  simp only [hSpace, hSign, hDigits, hParse, hValue]
  rw [if_neg (by omega), Int32.ofInt_toInt]
  exact ⟨_, by omega, rfl⟩

------------------------------------------------------------
-- Reading the Text
------------------------------------------------------------

theorem goodLines_line
    {line : Str} (hWhole : 10 ∉ line) (front rest : Str) :
    goodLines front (line ++ 10 :: rest) =
      (front ++ line) :: goodLines [] rest := by
  induction line generalizing front with
  | nil => simp [goodLines]
  | cons c line ih =>
      have hOther : c ≠ 10 := fun hSame =>
        hWhole (hSame ▸ List.mem_cons_self)
      have hRest : 10 ∉ line := fun hMem =>
        hWhole (List.mem_cons_of_mem c hMem)
      rw [List.cons_append, goodLines, if_neg hOther,
        ih hRest, List.append_assoc]
      rfl

theorem whole_pidLine (n : Int32) : 10 ∉ pidLine n := by
  intro hMem
  unfold pidLine at hMem
  rcases List.mem_append.mp hMem with hName | hRest
  · revert hName
    decide
  · rcases List.mem_cons.mp hRest with hTab | hNumber
    · cases hTab
    · rcases mem_decimal hNumber with hMinus | hDigit
      · cases hMinus
      · cases hDigit

theorem goodLines_lines
    {lines : List Str} (hWhole : ∀ line ∈ lines, 10 ∉ line)
    (rest : Str) :
    goodLines []
        ((lines.flatMap fun line => line ++ [10]) ++ rest) =
      lines ++ goodLines [] rest := by
  induction lines with
  | nil => rfl
  | cons line lines ih =>
      have hLine := hWhole line List.mem_cons_self
      have hRest := ih fun l hMem =>
        hWhole l (List.mem_cons_of_mem line hMem)
      rw [List.flatMap_cons, List.append_assoc,
        List.append_assoc, List.singleton_append,
        goodLines_line hLine, List.nil_append, hRest]
      rfl

theorem goodLines_text (info : Fdinfo) (n : Int32) :
    goodLines [] (info.text n) =
      info.before ++
        pidLine n :: goodLines [] info.rest := by
  unfold Fdinfo.text
  rw [goodLines_lines info.whole,
    goodLines_line (whole_pidLine n), List.nil_append]

section Fallback

variable (space : SpaceClass) (sys : System) (sig : Int32)

theorem sendLines_skip
    {before : List Str}
    (hOther : ∀ line ∈ before, ¬ fieldName <+: line)
    (lines : List Str) :
    sendLines space.isspace sys sig (before ++ lines) =
      sendLines space.isspace sys sig lines := by
  induction before with
  | nil => rfl
  | cons line before ih =>
      have hLine := hOther line List.mem_cons_self
      rw [← List.isPrefixOf_iff_prefix] at hLine
      rw [List.cons_append, sendLines, if_neg hLine]
      exact ih fun l hMem =>
        hOther l (List.mem_cons_of_mem line hMem)

/- The number in the line is what `kill()` gets. -/
theorem sendLine_pidLine (n : Int32) :
    sendLine space.isspace sys sig (pidLine n) =
      sendProcess sys n sig := by
  have hNumber :
      Split.strip space.isspace (9 :: decimal n) [] =
        decimal n := by
    symm
    apply
      (Split.strip_stripped space.isspace (9 :: decimal n)
        []).unique
    exact
      { cut := by
          refine ⟨[9], [], ?_, ?_, ?_⟩
          · rw [List.append_nil]
            rfl
          · intro c hTab
            rw [List.mem_singleton.mp hTab]
            exact space.tab
          · intro c hNone
            cases hNone
        head := fun c hHead =>
          not_space_of_mem space (List.mem_of_head? hHead)
        last := fun c hLast =>
          not_space_of_mem space
            (List.mem_of_getLast? hLast) }
  have hDrop :
      (pidLine n).drop fieldName.length = 9 :: decimal n :=
    List.drop_left' rfl
  rcases stoi_decimal space n with ⟨processed, hPos, hStoi⟩
  unfold sendLine
  simp only [hDrop, hNumber, hStoi]
  unfold sendParsed
  rw [if_neg (by omega)]

/- Without the system call there is `kill()`. -/
theorem fallback_eq
    (target : Nat) (flags : SendFlags) (info : Fdinfo) :
    fallback space sys target sig flags info =
      (sendProcess sys (pidField sys target) sig).run [] := by
  have hPrefix :
      fieldName.isPrefixOf (pidLine (pidField sys target)) =
        true := by
    rw [List.isPrefixOf_iff_prefix]
    exact List.prefix_append _ _
  unfold fallback send
  rw [if_pos rfl]
  simp only [goodLines_text]
  rw [sendLines_skip space sys sig info.other, sendLines,
    if_pos hPrefix, sendLine_pidLine]

end Fallback

------------------------------------------------------------
-- Who Gets a Signal
------------------------------------------------------------

/- The processes that may get the signal, if there are any. -/
theorem deliver_eq_ok_iff
    {sig : Int32} {processes : List Process}
    {got : List Nat} :
    deliver sig processes = .ok got ↔
      Permitted sig processes ∧
        got =
          (processes.filter fun p => p.permitted).map
            fun p => p.ident := by
  unfold deliver Permitted
  cases hValid : validSignal sig with
  | false => simp
  | true =>
      rw [if_neg (by simp)]
      by_cases hNone : processes = []
      · simp [hNone]
      · rw [if_neg hNone]
        cases hGot :
            processes.filter fun p => p.permitted with
        | nil =>
            rw [List.filter_eq_nil_iff] at hGot
            constructor
            · intro hOk
              cases hOk
            · rintro ⟨⟨-, p, hMem, hPermitted⟩, -⟩
              exact absurd hPermitted (hGot p hMem)
        | cons p rest =>
            have hMem : p ∈ processes ∧ p.permitted := by
              rw [← List.mem_filter, hGot]
              exact List.mem_cons_self
            constructor
            · intro hOk
              injection hOk with hOk
              exact ⟨⟨rfl, p, hMem⟩, hOk.symm⟩
            · rintro ⟨-, rfl⟩
              rfl

theorem exists_deliver_iff
    (sig : Int32) (processes : List Process) :
    (∃ got, deliver sig processes = .ok got) ↔
      Permitted sig processes := by
  constructor
  · rintro ⟨got, hOk⟩
    exact (deliver_eq_ok_iff.mp hOk).1
  · intro hPermitted
    exact ⟨_, deliver_eq_ok_iff.mpr ⟨hPermitted, rfl⟩⟩

section Promise

variable {space : SpaceClass} {sys : System} {target : Nat}
variable {sig : Int32} {flags : SendFlags} {info : Fdinfo}

/- If `kill()` fails, nobody gets the signal. -/
theorem right_iff_of_kill_error
    {e : Errno}
    (hKill : kill sys (pidField sys target) sig = .error e) :
    Right space sys target sig flags info ↔
      ¬ ∃ got,
        pidfdSendSignal sys target sig flags = .ok got := by
  have hFallback :=
    fallback_eq space sys sig target flags info
  unfold sendProcess at hFallback
  rw [hKill] at hFallback
  constructor
  · intro hRight hSome
    have hSucceeds := hRight.succeeds
    rw [hFallback] at hSucceeds
    exact absurd (hSucceeds.mpr hSome) nofun
  · intro hNone
    exact
      { others := by
          rw [hFallback]
          intro x hMem
          cases hMem
        delivered := by
          rw [hFallback]
          exact nofun
        succeeds := by
          rw [hFallback]
          exact ⟨nofun, fun hSome => absurd hSome hNone⟩ }

theorem right_iff_of_kill_ok
    {got : List Nat}
    (hKill : kill sys (pidField sys target) sig = .ok got) :
    Right space sys target sig flags info ↔
      ((∀ x ∈ got, x = target) ∧ target ∈ got) ∧
      ∃ got,
        pidfdSendSignal sys target sig flags = .ok got := by
  have hFallback :=
    fallback_eq space sys sig target flags info
  unfold sendProcess at hFallback
  rw [hKill] at hFallback
  constructor
  · intro hRight
    have hOthers := hRight.others
    have hDelivered := hRight.delivered
    have hSucceeds := hRight.succeeds
    rw [hFallback] at hOthers hDelivered hSucceeds
    exact ⟨⟨hOthers, hDelivered rfl⟩, hSucceeds.mp rfl⟩
  · rintro ⟨⟨hOthers, hDelivered⟩, hSome⟩
    exact
      { others := by
          rw [hFallback]
          exact hOthers
        delivered := by
          rw [hFallback]
          exact fun _ => hDelivered
        succeeds := by
          rw [hFallback]
          exact ⟨fun _ => hSome, fun _ => rfl⟩ }

/- What the promise says of `kill()`. -/
theorem right_iff_kill :
    Right space sys target sig flags info ↔
      (∀ got,
        kill sys (pidField sys target) sig = .ok got →
        (∀ x ∈ got, x = target) ∧ target ∈ got) ∧
      (Permitted sig (recipients sys (pidField sys target)) ↔
        ∃ got,
          pidfdSendSignal sys target sig flags =
            .ok got) := by
  have hExists :
      (∃ got, kill sys (pidField sys target) sig =
          .ok got) ↔
        Permitted sig
          (recipients sys (pidField sys target)) :=
    exists_deliver_iff sig _
  rw [← hExists]
  cases hKill : kill sys (pidField sys target) sig with
  | error e =>
      rw [right_iff_of_kill_error hKill]
      simp
  | ok got =>
      rw [right_iff_of_kill_ok hKill]
      simp

end Promise

------------------------------------------------------------
-- The Process of a PID
------------------------------------------------------------

section Live

variable {sys : System} {p : Process} {sig : Int32}
variable (hMem : p ∈ sys.processes) (hPos : 0 < p.pid)

include hMem hPos

/- A PID means one process. -/
theorem mem_recipients_iff (q : Process) :
    q ∈ recipients sys p.pid ↔ q = p := by
  have hNonzero : p.pid ≠ 0 := by
    intro hZero
    rw [hZero] at hPos
    exact absurd hPos (by decide)
  unfold recipients
  rw [List.mem_filter, if_pos hPos, Bool.and_eq_true]
  constructor
  · rintro ⟨hThere, hOther, hPid⟩
    exact
      sys.samePid q hThere p hMem (beq_iff_eq.mp hPid)
        (bne_iff_ne.mp hOther)
  · intro hSame
    rw [hSame]
    exact ⟨hMem, bne_iff_ne.mpr hNonzero, beq_self_eq_true _⟩

theorem kill_pid
    {got : List Nat}
    (hKill : kill sys p.pid sig = .ok got) :
    (∀ x ∈ got, x = p.ident) ∧ p.ident ∈ got := by
  rcases deliver_eq_ok_iff.mp hKill with
    ⟨⟨-, q, hRecipient, hPermitted⟩, rfl⟩
  constructor
  · intro x hGot
    rcases List.mem_map.mp hGot with ⟨r, hFiltered, rfl⟩
    have hSame :=
      (mem_recipients_iff hMem hPos r).mp
        (List.mem_filter.mp hFiltered).1
    rw [hSame]
  · rw [List.mem_map]
    refine ⟨q, ?_, ?_⟩
    · exact List.mem_filter.mpr ⟨hRecipient, hPermitted⟩
    · rw [(mem_recipients_iff hMem hPos q).mp hRecipient]

/- One process, and those with its PID. -/
theorem permitted_singleton_iff :
    Permitted sig [p] ↔
      Permitted sig (recipients sys p.pid) := by
  unfold Permitted
  simp only [mem_recipients_iff hMem hPos,
    List.mem_singleton]

end Live

------------------------------------------------------------
-- When It Is Right
------------------------------------------------------------

section Sent

variable (space : SpaceClass) {sys : System} {target : Nat}
variable (sig : Int32) {flags : SendFlags} (info : Fdinfo)

/- If the system call fails, `kill()` has to fail, too. -/
theorem right_iff_of_refused
    {e : Errno}
    (hRefused :
      pidfdSendSignal sys target sig flags = .error e) :
    Right space sys target sig flags info ↔
      ¬ Permitted sig
        (recipients sys (pidField sys target)) := by
  have hNone :
      ¬ ∃ got,
        pidfdSendSignal sys target sig flags = .ok got := by
    rintro ⟨got, hOk⟩
    exact absurd (hRefused.symm.trans hOk) nofun
  rw [right_iff_kill]
  constructor
  · rintro ⟨-, hSame⟩ hPermitted
    exact hNone (hSame.mp hPermitted)
  · intro hNobody
    refine ⟨?_, fun hPermitted => absurd hPermitted hNobody,
      fun hSome => absurd hSome hNone⟩
    intro got hKill
    exact absurd (deliver_eq_ok_iff.mp hKill).1 hNobody

/- A process that has a PID, with flags that are usable. -/
theorem right_iff_of_live
    {p : Process} (hUsable : usable sys flags = true)
    (hFound :
      (sys.processes.find? fun p => p.ident == target) =
        some p)
    (hPos : 0 < p.pid) :
    Right space sys target sig flags info ↔
      (flags.raw = flagProcessGroup →
        (Permitted sig (members sys p.pid) ↔
          Permitted sig (recipients sys p.pid))) := by
  have hMem := List.mem_of_find?_eq_some hFound
  have hSelected := List.find?_some hFound
  have hIdent : p.ident = target := beq_iff_eq.mp hSelected
  have hField : pidField sys target = p.pid := by
    unfold pidField
    rw [hFound]
  have hCall :
      pidfdSendSignal sys target sig flags =
        if flags.raw = flagProcessGroup then
          deliver sig (members sys p.pid)
        else deliver sig [p] := by
    have hNonzero : p.pid ≠ 0 := by
      intro hZero
      rw [hZero] at hPos
      exact absurd hPos (by decide)
    unfold pidfdSendSignal
    rw [hUsable, if_neg Bool.noConfusion, hFound]
    exact if_neg hNonzero
  have hKill :
      ∀ got, kill sys p.pid sig = .ok got →
        (∀ x ∈ got, x = target) ∧ target ∈ got := by
    rw [← hIdent]
    exact fun got => kill_pid hMem hPos
  rw [right_iff_kill, hField, hCall]
  by_cases hGroup : flags.raw = flagProcessGroup
  · simp only [if_pos hGroup, exists_deliver_iff]
    exact
      ⟨fun hRight _ => hRight.2.symm,
        fun hSame => ⟨hKill, (hSame hGroup).symm⟩⟩
  · simp only [if_neg hGroup, exists_deliver_iff]
    exact
      ⟨fun _ hOther => absurd hOther hGroup,
        fun _ =>
          ⟨hKill, (permitted_singleton_iff hMem hPos).symm⟩⟩

end Sent

theorem sent_right_iff
    (space : SpaceClass) (sys : System) (target : Nat)
    (sig : Int32) (flags : SendFlags) (info : Fdinfo) :
    Right space sys target sig flags info ↔
      Fit sys target sig flags := by
  unfold Fit
  cases hUsable : usable sys flags with
  | false =>
      have hRefused :
          pidfdSendSignal sys target sig flags =
            .error .invalidArg := by
        unfold pidfdSendSignal
        rw [if_pos hUsable]
      rw [right_iff_of_refused space sig info hRefused]
      simp
  | true =>
      have hUsable' : ¬ usable sys flags = false := by
        rw [hUsable]
        exact nofun
      cases hFound :
          sys.processes.find? fun p => p.ident == target with
      | none =>
          have hRefused :
              pidfdSendSignal sys target sig flags =
                .error noSuchProcess := by
            unfold pidfdSendSignal
            rw [if_neg hUsable', hFound]
          have hField : pidField sys target = -1 := by
            unfold pidField
            rw [hFound]
          rw [right_iff_of_refused space sig info hRefused,
            hField]
          simp
      | some p =>
          have hField : pidField sys target = p.pid := by
            unfold pidField
            rw [hFound]
          by_cases hZero : p.pid = 0
          · have hRefused :
                pidfdSendSignal sys target sig flags =
                  .error .invalidArg := by
              unfold pidfdSendSignal
              rw [if_neg hUsable', hFound]
              exact if_pos hZero
            rw [right_iff_of_refused space sig info hRefused,
              hField, hZero]
            simp
          · have hPos : 0 < p.pid :=
              Int32.lt_of_le_of_ne
                (sys.pids p
                  (List.mem_of_find?_eq_some hFound))
                (Ne.symm hZero)
            have hBranch : 0 < p.pid ∧ true = true :=
              ⟨hPos, rfl⟩
            rw [right_iff_of_live space sig info hUsable
              hFound hPos, hField, if_pos hBranch]

theorem isspaceC_digit
    (c : Byte) (hDigit : isDigit c = true) :
    Split.isspaceC c = false := by
  unfold isDigit at hDigit
  unfold Split.isspaceC
  simp only [Bool.and_eq_true, decide_eq_true_eq,
    UInt8.le_iff_toNat_le, UInt8.reduceToNat] at hDigit
  simp only [decide_eq_false_iff_not, ← UInt8.toNat_inj,
    UInt8.le_iff_toNat_le, UInt8.reduceToNat]
  omega

/- The "C" locale. -/
def spaceC : SpaceClass where
  isspace := Split.isspaceC
  tab := rfl
  minus := rfl
  digit := isspaceC_digit

/- The process was reaped, and there is one other process. -/
def bystander : System where
  processes := [⟨1, 100, 100, true, false⟩]
  callerGroup := 50
  knownFlags := 0
  pids := by decide
  sameIdent := by decide
  samePid := by decide

def onlyPid : Fdinfo where
  before := []
  rest := []
  whole := nofun
  other := nofun

/- The signal goes to the other process. -/
theorem not_right_reaped :
    ¬ Right spaceC bystander 7 15 ⟨0⟩ onlyPid := by
  intro hRight
  have hRun :
      (fallback spaceC bystander 7 15 ⟨0⟩ onlyPid).2 =
        [1] := by
    rw [fallback_eq]
    decide
  have hOther := hRight.others 1
  rw [hRun] at hOther
  exact absurd (hOther List.mem_cons_self) (by decide)

end PidFdSignal

end Cosmos
