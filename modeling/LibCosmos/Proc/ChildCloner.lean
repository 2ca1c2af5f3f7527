import LibCosmos.FS.FileDescriptor
import LibCosmos.Foundation.Machine
import LibCosmos.Foundation.Moves

/-
  The settings of a child process
  (`include/proc/ChildCloner.hxx`): its executable and its
  arguments, and the descriptors that `postFork` in
  `src/proc/ChildCloner.cxx` puts in the place of the
  standard ones.

  Main declarations:
    * `ChildCloner.setExe`, `ChildCloner.setArgs`,
      `ChildCloner.addArgument`, `ChildCloner.clearArgs`
    * `ChildCloner.Builder`, `ChildCloner.matching_along_iff`
    * `Kernel.dup3`, `ChildCloner.redirectFD`
    * `ChildCloner.simultaneous_iff`
-/

namespace Cosmos

structure ChildCloner where
  mExecutable : Str := []
  mArgv : List Str := []
  mAllowNoExe : Bool := false
  mStdout : FileDescriptor := {}
  mStderr : FileDescriptor := {}
  mStdin : FileDescriptor := {}
deriving DecidableEq, Repr

namespace ChildCloner

------------------------------------------------------------
-- Executable and Arguments
------------------------------------------------------------

def hasExe (c : ChildCloner) : Bool :=
  c.mExecutable ≠ []

def setArgv0 (c : ChildCloner) : ChildCloner :=
  match c.mArgv with
  | [] => { c with mArgv := [c.mExecutable] }
  | _ :: args => { c with mArgv := c.mExecutable :: args }

def setExeFromArgv0 (c : ChildCloner) : ChildCloner :=
  match c.mArgv with
  | [] => { c with mExecutable := [] }
  | argv0 :: _ => { c with mExecutable := argv0 }

def setExe (exe : Str) (c : ChildCloner) : ChildCloner :=
  setArgv0 { c with mAllowNoExe := false, mExecutable := exe }

def setArgs (sv : List Str) (c : ChildCloner) : ChildCloner :=
  setExeFromArgv0 { c with mArgv := sv }

def setArgsFromView
    (svv : List Str) (c : ChildCloner) : ChildCloner :=
  setExeFromArgv0
    { c with
      mArgv := svv.foldl (fun argv s => argv ++ [s]) [] }

/- `erase` of an iterator removes a single element. -/
def clearArgs (c : ChildCloner) : ChildCloner :=
  if c.mArgv.length > 1 then
    { c with mArgv := c.mArgv.eraseIdx 1 }
  else
    c

/- The operator `<<`. -/
def addArgument (arg : Str) (c : ChildCloner) : ChildCloner :=
  if ¬ c.hasExe then
    c.setExe arg
  else
    { c with mArgv := c.mArgv ++ [arg] }

/- What `exec` is given of it. -/
def command (c : ChildCloner) : Str × List Str :=
  (c.mExecutable, c.mArgv)

------------------------------------------------------------
-- The Argument Builder
------------------------------------------------------------

namespace Builder

inductive Op where
| setExe (exe : Str)
| setArgs (sv : List Str)
| setArgsFromView (svv : List Str)
| addArgument (arg : Str)
| clearArgs
deriving DecidableEq, Repr

def Op.apply (c : ChildCloner) : Op → ChildCloner
| .setExe exe => c.setExe exe
| .setArgs sv => c.setArgs sv
| .setArgsFromView svv => c.setArgsFromView svv
| .addArgument arg => c.addArgument arg
| .clearArgs => c.clearArgs

/-
  What a builder is for: an executable, and an argument
  vector that starts with it.
-/
structure Reference where
  exe : Str := []
  argv : List Str := []
deriving DecidableEq, Repr

namespace Reference

def setExe (exe : Str) (r : Reference) : Reference where
  exe := exe
  argv := exe :: r.argv.tail

def setArgs (sv : List Str) (_ : Reference) : Reference where
  exe := sv.headD []
  argv := sv

def addArgument (arg : Str) (r : Reference) : Reference :=
  if r.exe = [] then r.setExe arg
  else { r with argv := r.argv ++ [arg] }

def clearArgs (r : Reference) : Reference :=
  { r with argv := r.argv.take 1 }

def apply (r : Reference) : Op → Reference
| .setExe exe => r.setExe exe
| .setArgs sv => r.setArgs sv
| .setArgsFromView svv => r.setArgs svv
| .addArgument arg => r.addArgument arg
| .clearArgs => r.clearArgs

end Reference

/- The same calls on a cloner and on the reference. -/
def machine : Machine (ChildCloner × Reference) Op where
  legal _ _ := True
  step s op := (op.apply s.1, s.2.apply op)

def Matching (s : ChildCloner × Reference) : Prop :=
  s.1.command = (s.2.exe, s.2.argv)

/- More than one argument behind `argv0` is to be cleared. -/
def Op.Faulty (c : ChildCloner) : Op → Prop
| .clearArgs => c.mArgv.length > 2
| _ => False

theorem command_setArgv0 (c : ChildCloner) :
    c.setArgv0.command =
      (c.mExecutable, c.mExecutable :: c.mArgv.tail) := by
  unfold setArgv0
  cases c.mArgv <;> rfl

theorem command_setExeFromArgv0 (c : ChildCloner) :
    c.setExeFromArgv0.command =
      (c.mArgv.headD [], c.mArgv) := by
  unfold setExeFromArgv0 command
  cases c.mArgv <;> simp

theorem command_setExe (exe : Str) (c : ChildCloner) :
    (c.setExe exe).command = (exe, exe :: c.mArgv.tail) :=
  command_setArgv0 _

theorem command_setArgs (sv : List Str) (c : ChildCloner) :
    (c.setArgs sv).command = (sv.headD [], sv) :=
  command_setExeFromArgv0 _

/- Both ways to give all arguments are the same. -/
theorem setArgsFromView_eq
    (svv : List Str) (c : ChildCloner) :
    c.setArgsFromView svv = c.setArgs svv := by
  unfold setArgsFromView setArgs
  have hCopy : ∀ argv : List Str,
      svv.foldl (fun argv s => argv ++ [s]) argv =
        argv ++ svv := by
    induction svv with
    | nil => simp
    | cons s svv ih =>
        intro argv
        rw [List.foldl_cons, ih, List.append_assoc]
        rfl
  rw [hCopy []]
  rfl

/- One argument is removed, however many there are. -/
theorem command_clearArgs (c : ChildCloner) :
    c.clearArgs.command =
      (c.mExecutable, c.mArgv.eraseIdx 1) := by
  unfold clearArgs command
  by_cases hMany : c.mArgv.length > 1
  · rw [if_pos hMany]
  · rw [if_neg hMany,
      List.eraseIdx_of_length_le (Nat.not_lt.mp hMany)]

theorem eraseIdx_eq_take_iff (argv : List Str) :
    argv.eraseIdx 1 = argv.take 1 ↔ ¬ argv.length > 2 := by
  rcases argv with - | ⟨argv0, - | ⟨arg, args⟩⟩
  · simp
  · simp
  · cases args <;> simp

theorem matching_step
    {c : ChildCloner} {r : Reference}
    (hMatching : Matching (c, r)) (op : Op) :
    Matching (op.apply c, r.apply op) ↔ ¬ op.Faulty c := by
  have hExe : c.mExecutable = r.exe :=
    congrArg Prod.fst hMatching
  have hArgv : c.mArgv = r.argv :=
    congrArg Prod.snd hMatching
  cases op with
  | setExe exe =>
      refine iff_of_true ?_ id
      show (c.setExe exe).command = (exe, exe :: r.argv.tail)
      rw [command_setExe, hArgv]
  | setArgs sv =>
      exact iff_of_true (command_setArgs sv c) id
  | setArgsFromView svv =>
      refine iff_of_true ?_ id
      show (c.setArgsFromView svv).command =
        (svv.headD [], svv)
      rw [setArgsFromView_eq]
      exact command_setArgs svv c
  | addArgument arg =>
      refine iff_of_true ?_ id
      show (c.addArgument arg).command =
        ((r.addArgument arg).exe, (r.addArgument arg).argv)
      unfold addArgument Reference.addArgument
      by_cases hNone : r.exe = []
      · have hNot : ¬ c.hasExe = true := by
          simp [hasExe, hExe, hNone]
        rw [if_pos hNot, if_pos hNone, command_setExe, hArgv]
        rfl
      · have hHas : ¬ ¬ c.hasExe = true := by
          simp [hasExe, hExe, hNone]
        rw [if_neg hHas, if_neg hNone]
        unfold command
        rw [hExe, hArgv]
  | clearArgs =>
      show c.clearArgs.command = (r.exe, r.argv.take 1) ↔
        ¬ c.mArgv.length > 2
      rw [command_clearArgs, hExe, hArgv, Prod.mk.injEq]
      simp only [true_and]
      exact eraseIdx_eq_take_iff r.argv

/-
  After every sequence of calls the executable and the
  arguments are those of the reference exactly as long as
  no call is faulty.
-/
theorem matching_along_iff (ops : List Op) :
    machine.Along (fun _ _ s' => Matching s') ({}, {}) ops ↔
      machine.Along (fun s op _ => ¬ op.Faulty s.1) ({}, {})
        ops := by
  have hLegal : machine.Legal ({}, {}) ops :=
    Machine.legal_of_forall (fun _ _ => trivial) ops _
  refine
    Machine.along_iff_of_invariant Matching ?_ ?_ ops
      ({}, {}) rfl hLegal
  · rintro ⟨c, r⟩ op hMatching - hGood
    have hAfter := (matching_step hMatching op).mpr hGood
    exact ⟨hAfter, hAfter⟩
  · rintro ⟨c, r⟩ op hMatching - hFaulty hAfter
    exact hFaulty ((matching_step hMatching op).mp hAfter)

/- Two arguments are cleared, and one of them is left. -/
theorem clearArgs_leaves_argument :
    ((({} : ChildCloner).setArgs
        [str "ls", str "-l", str "/"]).clearArgs).mArgv =
        [str "ls", str "/"] ∧
      ¬ machine.Along (fun _ _ s' => Matching s') ({}, {})
        [.setArgs [str "ls", str "-l", str "/"],
          .clearArgs] := by
  refine ⟨rfl, ?_⟩
  rintro ⟨-, hAfter, -⟩
  exact absurd (congrArg Prod.snd hAfter) (by decide)

end Builder

end ChildCloner

------------------------------------------------------------
-- Descriptor Tables
------------------------------------------------------------

/- An open file description, and the flag of a descriptor. -/
structure FDEntry where
  description : Nat
  closeOnExec : Bool
deriving DecidableEq, Repr

/- The descriptors of a process. -/
abbrev FDTable := FileNum → Option FDEntry

namespace Kernel

/-
  `dup3` for a new number in the range of the table: the old
  one must be another one, and open.
-/
def dup3
    (oldFd newFd : FileNum) (closeOnExec : Bool)
    (t : FDTable) : Sys FDTable :=
  if oldFd = newFd then
    .error Errno.invalidArg
  else
    match t oldFd with
    | none => .error Errno.badFd
    | some entry =>
        .ok
          (Function.update t newFd
            (some { entry with closeOnExec := closeOnExec }))

end Kernel

/- `FileDescriptor::duplicate` to a given descriptor. -/
def FileDescriptor.duplicate
    (fd newFd : FileDescriptor) (cloexec : Bool) :
    Method FDTable Unit := do
  let t ← Command.get
  match Kernel.dup3 fd.mFd newFd.mFd cloexec t with
  | .ok t' => Command.modify fun _ => t'
  | .error e => throwApi e "dup3()"

namespace ChildCloner

------------------------------------------------------------
-- Redirections
------------------------------------------------------------

def redirectFD (orig redirect : FileDescriptor) :
    Method FDTable Unit :=
  if ¬ redirect.valid then pure ()
  else redirect.duplicate orig false

/- The calls of `redirectFD` that `postFork` makes. -/
def redirectStd (c : ChildCloner) : Method FDTable Unit := do
  redirectFD ⟨FileNum.stdout⟩ c.mStdout
  redirectFD ⟨FileNum.stderr⟩ c.mStderr
  redirectFD ⟨FileNum.stdin⟩ c.mStdin

/- What is redirected to what, in this order. -/
def redirections (c : ChildCloner) :
    List (FileNum × FileDescriptor) :=
  [(FileNum.stdout, c.mStdout), (FileNum.stderr, c.mStderr),
    (FileNum.stdin, c.mStdin)]

/- What a descriptor is to be in the child. -/
def redirected
    (t : FDTable) (orig : FileNum)
    (redirect : FileDescriptor) : Option FDEntry :=
  if redirect.valid then
    (t redirect.mFd).map fun entry =>
      { entry with closeOnExec := false }
  else
    t orig

/-
  The child does not fail, and has in each place what was
  chosen for it in the parent.
-/
def Simultaneous (c : ChildCloner) (t : FDTable) : Prop :=
  ∃ t', c.redirectStd.run t = (.returned (), t') ∧
    ∀ p ∈ c.redirections, t' p.1 = redirected t p.1 p.2

def description (t : FDTable) (fd : FileNum) : Option Nat :=
  (t fd).map FDEntry.description

/-
  No descriptor is redirected to itself, and none that is
  redirected is what a later redirection is to, unless its
  description does not change.
-/
structure Undisturbed (c : ChildCloner) (t : FDTable) :
    Prop where
  others :
    c.mStdout.mFd ≠ FileNum.stdout ∧
      c.mStderr.mFd ≠ FileNum.stderr ∧
      c.mStdin.mFd ≠ FileNum.stdin
  stderrOfStdout :
    c.mStdout.valid → c.mStderr.mFd = FileNum.stdout →
      description t c.mStdout.mFd =
        description t FileNum.stdout
  stdinOfStdout :
    c.mStdout.valid → c.mStdin.mFd = FileNum.stdout →
      description t c.mStdout.mFd =
        description t FileNum.stdout
  stdinOfStderr :
    c.mStderr.valid → c.mStdin.mFd = FileNum.stderr →
      description t c.mStderr.mFd =
        description t FileNum.stderr

------------------------------------------------------------
-- Redirections as Moves
------------------------------------------------------------

/- The same for any list of redirections. -/
def redirectAll :
    List (FileNum × FileDescriptor) → Method FDTable Unit
| [] => pure ()
| (orig, redirect) :: rest => do
    redirectFD ⟨orig⟩ redirect
    redirectAll rest

theorem run_redirectStd (c : ChildCloner) (t : FDTable) :
    c.redirectStd.run t =
      (redirectAll c.redirections).run t := by
  unfold redirectStd redirections redirectAll redirectAll
    redirectAll redirectAll
  rw [Command.bind_pure_self]

theorem run_redirectFD_invalid
    (orig : FileDescriptor) {redirect : FileDescriptor}
    (hInvalid : ¬ redirect.valid) (t : FDTable) :
    (redirectFD orig redirect).run t = (.returned (), t) := by
  unfold redirectFD
  rw [if_pos hInvalid]
  rfl

theorem run_redirectFD_self
    {orig redirect : FileDescriptor}
    (hValid : redirect.valid)
    (hSelf : redirect.mFd = orig.mFd) (t : FDTable) :
    (redirectFD orig redirect).run t =
      (.raised (.apiError Errno.invalidArg (str "dup3()")),
        t) := by
  unfold redirectFD FileDescriptor.duplicate Kernel.dup3
  rw [if_neg (fun hNot => hNot hValid),
    Command.run_bind_returned (Command.run_get t),
    if_pos hSelf]
  rfl

theorem run_redirectFD_open
    {orig redirect : FileDescriptor}
    (hValid : redirect.valid)
    (hOther : redirect.mFd ≠ orig.mFd)
    {t : FDTable} {entry : FDEntry}
    (hOpen : t redirect.mFd = some entry) :
    (redirectFD orig redirect).run t =
      (.returned (),
        Function.update t orig.mFd
          (some { entry with closeOnExec := false })) := by
  unfold redirectFD FileDescriptor.duplicate Kernel.dup3
  rw [if_neg (fun hNot => hNot hValid),
    Command.run_bind_returned (Command.run_get t),
    if_neg hOther, hOpen]
  rfl

/- The redirections that are set, as moves. -/
def moves (l : List (FileNum × FileDescriptor)) :
    List (Moves.Move FileNum) :=
  (l.filter fun p => p.2.valid).map fun p => ⟨p.1, p.2.mFd⟩

theorem moves_cons_valid
    {p : FileNum × FileDescriptor} (hValid : p.2.valid)
    (l : List (FileNum × FileDescriptor)) :
    moves (p :: l) = ⟨p.1, p.2.mFd⟩ :: moves l := by
  simp [moves, hValid]

theorem moves_cons_invalid
    {p : FileNum × FileDescriptor} (hInvalid : ¬ p.2.valid)
    (l : List (FileNum × FileDescriptor)) :
    moves (p :: l) = moves l := by
  simp [moves, hInvalid]

theorem description_update
    (t : FDTable) (fd : FileNum) (entry : FDEntry) :
    description (Function.update t fd (some entry)) =
      Function.update (description t) fd
        (some entry.description) := by
  funext k
  by_cases hk : k = fd
  · subst hk
    simp [description]
  · simp [description, hk]

/- A descriptor that is redirected to itself is an error. -/
theorem run_redirectAll_self :
    ∀ {l : List (FileNum × FileDescriptor)} {t t' : FDTable},
      (redirectAll l).run t = (.returned (), t') →
      ∀ p ∈ l, p.2.valid → p.2.mFd ≠ p.1
| [], _, _, _ => by simp
| (orig, redirect) :: rest, t, t', hRun => by
    rcases hFirst : (redirectFD ⟨orig⟩ redirect).run t with
      ⟨⟨⟨⟩⟩ | e | h, t''⟩
    · unfold redirectAll at hRun
      rw [Command.run_bind_returned hFirst] at hRun
      have hRest := run_redirectAll_self hRun
      intro p hMem hValid
      rcases List.mem_cons.mp hMem with rfl | hTail
      · intro hSelf
        rw [run_redirectFD_self hValid hSelf] at hFirst
        cases hFirst
      · exact hRest p hTail hValid
    · unfold redirectAll at hRun
      rw [Command.run_bind_raised hFirst] at hRun
      cases hRun
    · unfold redirectAll at hRun
      rw [Command.run_bind, hFirst] at hRun
      cases hRun

/- A place that is filled first and may be filled again. -/
theorem places_cons
    {t t' : FDTable} {orig : FileNum} {d : Nat}
    {targets : List FileNum}
    (hPlaces :
      ∀ fd,
        if fd ∈ targets then
          ∃ d, t' fd = some ⟨d, false⟩
        else
          t' fd =
            Function.update t orig (some ⟨d, false⟩) fd) :
    ∀ fd,
      if fd ∈ orig :: targets then
        ∃ d, t' fd = some ⟨d, false⟩
      else
        t' fd = t fd := by
  intro fd
  have hPlace := hPlaces fd
  by_cases hTarget : fd ∈ targets
  · rw [if_pos hTarget] at hPlace
    rw [if_pos (List.mem_cons_of_mem _ hTarget)]
    exact hPlace
  · rw [if_neg hTarget] at hPlace
    by_cases hHere : fd = orig
    · subst hHere
      rw [if_pos List.mem_cons_self, hPlace]
      exact ⟨d, Function.update_self ..⟩
    · have hNotMem : fd ∉ orig :: targets := by
        simp only [List.mem_cons, not_or]
        exact ⟨hHere, hTarget⟩
      rw [if_neg hNotMem, hPlace, Function.update_of_ne hHere]

/-
  Without that, and from open descriptors, all moves are
  made: descriptions move, and targets lose the flag.
-/
theorem run_redirectAll :
    ∀ {l : List (FileNum × FileDescriptor)} {t : FDTable},
      (∀ p ∈ l, p.2.valid → p.2.mFd ≠ p.1) →
      (∀ p ∈ l, p.2.valid → t p.2.mFd ≠ none) →
      ∃ t', (redirectAll l).run t = (.returned (), t') ∧
        description t' =
          Moves.run (moves l) (description t) ∧
        ∀ fd,
          if fd ∈ (moves l).map Moves.Move.target then
            ∃ d, t' fd = some ⟨d, false⟩
          else
            t' fd = t fd
| [], t, _, _ => ⟨t, rfl, rfl, fun _ => rfl⟩
| (orig, redirect) :: rest, t, hOthers, hOpen => by
    have hOthers' :=
      fun p hMem =>
        hOthers p (List.mem_cons_of_mem (orig, redirect) hMem)
    have hOpen' :=
      fun p hMem =>
        hOpen p (List.mem_cons_of_mem (orig, redirect) hMem)
    by_cases hValid : redirect.valid
    · rcases Option.ne_none_iff_exists'.mp
          (hOpen (orig, redirect) List.mem_cons_self
            hValid) with
        ⟨entry, hEntry⟩
      have hFirst :
          (redirectFD ⟨orig⟩ redirect).run t =
            (.returned (),
              Function.update t orig
                (some ⟨entry.description, false⟩)) :=
        run_redirectFD_open hValid
          (hOthers (orig, redirect) List.mem_cons_self hValid)
          hEntry
      have hStill :
          ∀ p ∈ rest, p.2.valid →
            Function.update t orig
                (some ⟨entry.description, false⟩) p.2.mFd ≠
              none := by
        intro p hMem hp
        by_cases hSame : p.2.mFd = orig
        · simp [hSame]
        · rw [Function.update_of_ne hSame]
          exact hOpen' p hMem hp
      rcases run_redirectAll hOthers' hStill with
        ⟨t', hRun, hMoves, hPlaces⟩
      refine ⟨t', ?_, ?_, ?_⟩
      · unfold redirectAll
        rw [Command.run_bind_returned hFirst]
        exact hRun
      · have hRead :
            description t redirect.mFd =
              some entry.description := by
          simp [description, hEntry]
        rw [moves_cons_valid hValid, hMoves,
          description_update, ← hRead]
        rfl
      · rw [moves_cons_valid hValid, List.map_cons]
        exact places_cons hPlaces
    · rcases run_redirectAll hOthers' hOpen' with
        ⟨t', hRun, hMoves, hPlaces⟩
      refine ⟨t', ?_, ?_, ?_⟩
      · unfold redirectAll
        rw [Command.run_bind_returned
          (run_redirectFD_invalid ⟨orig⟩ hValid t)]
        exact hRun
      · rw [moves_cons_invalid hValid]
        exact hMoves
      · rw [moves_cons_invalid hValid]
        exact hPlaces

/- All places are right exactly if all moves are. -/
theorem redirected_iff_moves
    {l : List (FileNum × FileDescriptor)} {t t' : FDTable}
    (hNodup : (l.map Prod.fst).Nodup)
    (hMoves :
      description t' = Moves.run (moves l) (description t))
    (hPlaces :
      ∀ fd,
        if fd ∈ (moves l).map Moves.Move.target then
          ∃ d, t' fd = some ⟨d, false⟩
        else
          t' fd = t fd) :
    (∀ p ∈ l, t' p.1 = redirected t p.1 p.2) ↔
      ∀ m ∈ moves l,
        Moves.run (moves l) (description t) m.target =
          description t m.source := by
  constructor
  · intro hAll m hMem
    rcases List.mem_map.mp hMem with ⟨p, hFilter, rfl⟩
    rcases List.mem_filter.mp hFilter with ⟨hp, hValid⟩
    have hPlace := hAll p hp
    unfold redirected at hPlace
    rw [if_pos hValid] at hPlace
    show Moves.run (moves l) (description t) p.1 =
      description t p.2.mFd
    rw [← hMoves]
    unfold description
    rw [hPlace, Option.map_map]
    rfl
  · intro hAll p hp
    have hPlace := hPlaces p.1
    unfold redirected
    by_cases hValid : p.2.valid
    · have hMem : (⟨p.1, p.2.mFd⟩ : Moves.Move FileNum) ∈
          moves l :=
        List.mem_map.mpr
          ⟨p, List.mem_filter.mpr ⟨hp, hValid⟩, rfl⟩
      rw [if_pos (List.mem_map_of_mem hMem)] at hPlace
      rcases hPlace with ⟨d, hThere⟩
      have hSource := hAll _ hMem
      rw [← hMoves] at hSource
      rw [if_pos hValid, hThere]
      cases hEntry : t p.2.mFd with
      | none => simp [description, hThere, hEntry] at hSource
      | some entry =>
          have hSame : d = entry.description := by
            simpa [description, hThere, hEntry] using hSource
          rw [hSame]
          rfl
    · have hNotMem :
          p.1 ∉ (moves l).map Moves.Move.target := by
        intro hTarget
        rcases List.mem_map.mp hTarget with ⟨m, hm, hSame⟩
        rcases List.mem_map.mp hm with ⟨q, hFilter, rfl⟩
        rcases List.mem_filter.mp hFilter with ⟨hq, hSet⟩
        have hEq : q = p :=
          List.inj_on_of_nodup_map hNodup hq hp hSame
        rw [hEq] at hSet
        exact hValid hSet
      rw [if_neg hNotMem] at hPlace
      rw [if_neg hValid]
      exact hPlace

theorem nodup_targets
    {l : List (FileNum × FileDescriptor)}
    (hNodup : (l.map Prod.fst).Nodup) :
    ((moves l).map Moves.Move.target).Nodup := by
  unfold moves
  rw [List.map_map]
  exact hNodup.sublist (List.filter_sublist.map Prod.fst)

theorem nodup_redirections (c : ChildCloner) :
    (c.redirections.map Prod.fst).Nodup := by
  unfold redirections
  simp only [List.map_cons, List.map_nil]
  decide

/- Which redirections disturb another, one by one. -/
theorem undisturbed_iff (c : ChildCloner) (t : FDTable) :
    Undisturbed c t ↔
      (∀ p ∈ c.redirections, p.2.valid → p.2.mFd ≠ p.1) ∧
        (moves c.redirections).Pairwise
          (Moves.Undisturbed (description t)) := by
  have hValid : ∀ fd : FileDescriptor,
      ∀ n ∈ [FileNum.stdin, FileNum.stdout, FileNum.stderr],
        fd.mFd = n → fd.valid = true := by
    rintro ⟨n⟩ m hMem rfl
    simp only [List.mem_cons, List.not_mem_nil,
      or_false] at hMem
    rcases hMem with rfl | rfl | rfl <;> rfl
  unfold moves
  rw [List.pairwise_map, List.pairwise_filter]
  unfold Moves.Undisturbed redirections
  simp only [List.mem_cons, List.not_mem_nil, or_false,
    forall_eq_or_imp, forall_eq, List.pairwise_cons,
    List.Pairwise.nil, and_true, false_imp_iff,
    implies_true]
  constructor
  · rintro ⟨⟨hOut, hErr, hIn⟩, hErrOut, hInOut, hInErr⟩
    refine
      ⟨⟨fun _ => hOut, fun _ => hErr, fun _ => hIn⟩,
        ⟨fun hSet _ hSame => ?_, fun hSet _ hSame => ?_⟩,
        fun hSet _ hSame => ?_⟩
    · rw [hSame]
      exact hErrOut hSet hSame
    · rw [hSame]
      exact hInOut hSet hSame
    · rw [hSame]
      exact hInErr hSet hSame
  · rintro ⟨⟨hOut, hErr, hIn⟩, ⟨hErrOut, hInOut⟩, hInErr⟩
    refine
      { others := ⟨?_, ?_, ?_⟩
        stderrOfStdout := ?_
        stdinOfStdout := ?_
        stdinOfStderr := ?_ }
    · intro hSame
      exact hOut (hValid _ _ (by simp) hSame) hSame
    · intro hSame
      exact hErr (hValid _ _ (by simp) hSame) hSame
    · intro hSame
      exact hIn (hValid _ _ (by simp) hSame) hSame
    · intro hSet hSame
      rw [← hSame]
      exact hErrOut hSet (hValid _ _ (by simp) hSame) hSame
    · intro hSet hSame
      rw [← hSame]
      exact hInOut hSet (hValid _ _ (by simp) hSame) hSame
    · intro hSet hSame
      rw [← hSame]
      exact hInErr hSet (hValid _ _ (by simp) hSame) hSame

/-
  The three redirections have the effect of making them at
  once exactly if they do not disturb each other.
-/
theorem simultaneous_iff
    (c : ChildCloner) (t : FDTable)
    (hOpen :
      ∀ p ∈ c.redirections, p.2.valid →
        t p.2.mFd ≠ none) :
    Simultaneous c t ↔ Undisturbed c t := by
  have hNodup := nodup_redirections c
  have hParallel :=
    Moves.parallel_iff (description t)
      (nodup_targets hNodup)
  rw [undisturbed_iff, ← hParallel]
  unfold Simultaneous
  rw [run_redirectStd]
  constructor
  · rintro ⟨t', hRun, hAll⟩
    have hOthers := run_redirectAll_self hRun
    refine ⟨hOthers, ?_⟩
    rcases run_redirectAll hOthers hOpen with
      ⟨t'', hRun', hMoves, hPlaces⟩
    rw [hRun] at hRun'
    cases hRun'
    exact
      (redirected_iff_moves hNodup hMoves hPlaces).mp hAll
  · rintro ⟨hOthers, hAll⟩
    rcases run_redirectAll hOthers hOpen with
      ⟨t', hRun, hMoves, hPlaces⟩
    refine ⟨t', hRun, ?_⟩
    exact
      (redirected_iff_moves hNodup hMoves hPlaces).mpr hAll

/- Descriptors 0 to 4 have a description each. -/
def fiveOpen : FDTable := fun fd =>
  if 0 ≤ fd.raw ∧ fd.raw ≤ 4 then
    some ⟨fd.raw.toInt.toNat, true⟩
  else
    none

theorem simultaneous_of_rotation :
    Simultaneous
      { mStdout := ⟨FileNum.stderr⟩
        mStderr := ⟨FileNum.stdin⟩
        mStdin := ⟨⟨4⟩⟩ } fiveOpen := by
  refine (simultaneous_iff _ _ ?_).mpr ?_
  · decide
  · exact
      { others := by decide
        stderrOfStdout := by decide
        stdinOfStdout := by decide
        stdinOfStderr := by decide }

/-
  Descriptors 1 and 2 are to be swapped, and both are what 2
  was; and 1 is to be inherited as it is, which fails.
-/
theorem swap_is_not_simultaneous :
    (∀ t',
      (redirectStd
          { mStdout := ⟨FileNum.stderr⟩
            mStderr := ⟨FileNum.stdout⟩ }).run fiveOpen =
        (.returned (), t') →
      t' FileNum.stdout = some ⟨2, false⟩ ∧
        t' FileNum.stderr = some ⟨2, false⟩) ∧
      ¬ Simultaneous
        { mStdout := ⟨FileNum.stderr⟩
          mStderr := ⟨FileNum.stdout⟩ } fiveOpen ∧
      ((redirectStd
          { mStdout := ⟨FileNum.stdout⟩ }).run
        fiveOpen).1 =
        .raised
          (.apiError Errno.invalidArg (str "dup3()")) := by
  refine ⟨?_, ?_, rfl⟩
  · rintro t' ⟨⟩
    exact ⟨by decide, by decide⟩
  · rintro ⟨t', ⟨⟩, hAll⟩
    have hErr :=
      hAll (FileNum.stderr, ⟨FileNum.stdout⟩)
        (by simp [redirections])
    exact absurd hErr (by decide)

end ChildCloner

end Cosmos
