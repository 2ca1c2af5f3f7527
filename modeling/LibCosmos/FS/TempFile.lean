import LibCosmos.FS.FileSystem
import LibCosmos.Foundation.Machine
import Mathlib.Logic.Function.Basic

/-
  Temporary files and directories and the objects that have
  to remove them (`include/fs/TempFile.hxx`,
  `include/fs/TempDir.hxx`, `src/fs/TempDir.cxx` and
  `make_tempfile`, `make_tempdir` in `src/fs/filesystem.cxx`).

  What an object has to remove is the path in `m_tmp_path`,
  nothing if that is empty. Events are what was created and
  which removals were attempted, newest first.

  Main declarations:
    * `TempPath.status`, `TempPath.Books`
    * `TempFile.close`, `TempFile.openTemplate`,
      `TempDir.close`, `TempDir.create`
    * `TempPath.Op.Faulty`, `TempPath.Kept`
    * `TempPath.paths_kept_along_iff`
-/

namespace Cosmos

namespace TempPath

------------------------------------------------------------
-- Events
------------------------------------------------------------

/- What happened to a path. -/
inductive Event where
| created (path : Str)
| attempted (path : Str) (success : Bool)
deriving DecidableEq, Repr

/-
  What is known of a path: nothing was created there, it has
  to be removed, its removal failed, or it was removed.
-/
inductive Status where
| unknown
| pending
| failed
| removed
deriving DecidableEq, Repr

/- The newest event about a path decides. -/
def status (path : Str) : List Event → Status
| [] => .unknown
| .created p :: events =>
    if p = path then .pending else status path events
| .attempted p success :: events =>
    if p = path then
      if success then .removed else .failed
    else status path events

variable {ι : Type} [DecidableEq ι]

/-
  Sound books: every path that has to be removed is at one
  place, and a place has nothing but paths that were created
  and are not removed.
-/
structure Books
    (paths : ι → Str) (events : List Event) : Prop where
  owned :
    ∀ p, status p events = .pending →
      p ≠ [] ∧ ∃ h, paths h = p
  known :
    ∀ h, paths h ≠ [] →
      status (paths h) events = .pending ∨
        status (paths h) events = .failed
  single :
    ∀ h k, paths h ≠ [] → paths h = paths k → h = k

/- What becomes of the path of an object that lets go. -/
inductive Disposed (path : Str) (events : List Event) :
    Str → List Event → Prop where
| untouched : Disposed path events path events
| removed (success : Bool) :
    path ≠ [] →
    Disposed path events []
      (.attempted path success :: events)
| retained :
    path ≠ [] →
    Disposed path events path
      (.attempted path false :: events)

variable {paths : ι → Str} {events : List Event}

theorem Books.dispose
    (hBooks : Books paths events)
    {h : ι} {path' : Str} {events' : List Event}
    (hDisposed :
      Disposed (paths h) events path' events') :
    Books (Function.update paths h path') events' := by
  cases hDisposed with
  | untouched =>
      rw [Function.update_eq_self]
      exact hBooks
  | retained hSome =>
      rw [Function.update_eq_self]
      refine
        { owned := ?_
          known := ?_
          single := hBooks.single }
      · intro p hPending
        by_cases hSame : paths h = p
        · simp [status, hSame] at hPending
        · simp only [status, hSame, if_false] at hPending
          exact hBooks.owned p hPending
      · intro k hk
        by_cases hSame : paths h = paths k
        · simp [status, hSame]
        · simpa [status, hSame] using hBooks.known k hk
  | removed success hSome =>
      refine
        { owned := ?_
          known := ?_
          single := ?_ }
      · intro p hPending
        by_cases hSame : paths h = p
        · cases success <;> simp [status, hSame] at hPending
        · simp only [status, hSame, if_false] at hPending
          rcases hBooks.owned p hPending with ⟨hp, k, hk⟩
          refine ⟨hp, k, ?_⟩
          have hNe : k ≠ h := by
            rintro rfl
            exact hSame hk
          rw [Function.update_of_ne hNe, hk]
      · intro k hk
        by_cases hEq : k = h
        · subst hEq
          simp at hk
        · rw [Function.update_of_ne hEq] at hk ⊢
          have hOther : paths h ≠ paths k := fun hSame =>
            hEq (hBooks.single h k hSome hSame).symm
          simpa [status, hOther] using hBooks.known k hk
      · intro k l hk hSame
        by_cases hEq : k = h
        · subst hEq
          simp at hk
        · rw [Function.update_of_ne hEq] at hk hSame
          by_cases hEq' : l = h
          · subst hEq'
            simp [hk] at hSame
          · rw [Function.update_of_ne hEq'] at hSame
            exact hBooks.single k l hk hSame

/- An object that has nothing creates something new. -/
theorem Books.create
    (hBooks : Books paths events)
    {h : ι} {p : Str}
    (hEmpty : paths h = [])
    (hPath : p ≠ [])
    (hFresh : ∀ k, k ≠ h → paths k ≠ p) :
    Books (Function.update paths h p)
      (.created p :: events) := by
  refine
    { owned := ?_
      known := ?_
      single := ?_ }
  · intro q hPending
    by_cases hSame : p = q
    · subst hSame
      exact ⟨hPath, h, by simp⟩
    · simp only [status, hSame, if_false] at hPending
      rcases hBooks.owned q hPending with ⟨hq, k, hk⟩
      refine ⟨hq, k, ?_⟩
      have hNe : k ≠ h := by
        rintro rfl
        exact hq (hk.symm.trans hEmpty)
      rw [Function.update_of_ne hNe, hk]
  · intro k hk
    by_cases hEq : k = h
    · subst hEq
      simp [status]
    · rw [Function.update_of_ne hEq] at hk ⊢
      have hOther : p ≠ paths k := fun hSame =>
        hFresh k hEq hSame.symm
      simpa [status, hOther] using hBooks.known k hk
  · intro k l hk hSame
    by_cases hEq : k = h <;> by_cases hEq' : l = h
    · exact hEq.trans hEq'.symm
    · subst hEq
      simp only [Function.update_self,
        Function.update_of_ne hEq'] at hSame
      exact absurd hSame.symm (hFresh l hEq')
    · subst hEq'
      simp only [Function.update_self,
        Function.update_of_ne hEq] at hSame
      exact absurd hSame (hFresh k hEq)
    · rw [Function.update_of_ne hEq] at hk hSame
      rw [Function.update_of_ne hEq'] at hSame
      exact hBooks.single k l hk hSame

/- What is at every place after a move from `k` to `h`. -/
theorem move_apply (h k l : ι) :
    Function.update (Function.update paths h (paths k)) k
        [] l =
      if l = k then []
      else if l = h then paths k
      else paths l := by
  by_cases hk : l = k
  · subst hk
    simp
  · by_cases hh : l = h
    · subst hh
      simp [hk]
    · simp [hk, hh]

/- A move to a place without something to remove. -/
theorem Books.move
    (hBooks : Books paths events)
    {h k : ι}
    (hTarget : status (paths h) events ≠ .pending) :
    Books
      (Function.update (Function.update paths h (paths k)) k
        []) events := by
  refine
    { owned := ?_
      known := ?_
      single := ?_ }
  · intro p hPending
    rcases hBooks.owned p hPending with ⟨hp, l, hl⟩
    have hNe : l ≠ h := by
      rintro rfl
      rw [hl] at hTarget
      exact hTarget hPending
    by_cases hk : l = k
    · subst hk
      exact ⟨hp, h, by simp [hNe.symm, hl]⟩
    · exact ⟨hp, l, by simp [hNe, hk, hl]⟩
  · intro l hl
    rw [move_apply] at hl ⊢
    by_cases hk : l = k
    · simp [hk] at hl
    · by_cases hh : l = h
      · simp only [if_neg hk, if_pos hh] at hl ⊢
        exact hBooks.known k hl
      · simp only [if_neg hk, if_neg hh] at hl ⊢
        exact hBooks.known l hl
  · intro l m hl hSame
    rw [move_apply] at hl hSame
    rw [move_apply] at hSame
    by_cases hlk : l = k
    · simp [hlk] at hl
    · simp only [if_neg hlk] at hl hSame
      by_cases hmk : m = k
      · simp only [if_pos hmk] at hSame
        exact absurd hSame hl
      · simp only [if_neg hmk] at hSame
        by_cases hlh : l = h <;> by_cases hmh : m = h
        · exact hlh.trans hmh.symm
        · simp only [if_pos hlh, if_neg hmh] at hl hSame
          exact
            absurd (hBooks.single k m hl hSame).symm hmk
        · simp only [if_neg hlh, if_pos hmh] at hl hSame
          exact absurd (hBooks.single l k hl hSame) hlk
        · simp only [if_neg hlh, if_neg hmh] at hl hSame
          exact hBooks.single l m hl hSame

/- A move drops what its target has to remove. -/
theorem Books.not_owned_move
    (hBooks : Books paths events)
    {h k : ι}
    (hTarget : status (paths h) events = .pending) :
    ∀ l,
      Function.update (Function.update paths h (paths k)) k
        [] l ≠ paths h := by
  intro l
  have hSome := (hBooks.owned (paths h) hTarget).1
  rw [move_apply]
  by_cases hk : l = k
  · simp [hk, hSome.symm]
  · by_cases hh : l = h
    · simp only [if_neg hk, if_pos hh]
      intro hSame
      exact
        hk (hh.trans (hBooks.single h k hSome hSame.symm))
    · simp only [if_neg hk, if_neg hh]
      intro hSame
      exact hh (hBooks.single h l hSome hSame.symm).symm

end TempPath

open TempPath

------------------------------------------------------------
-- Creating Temporary Files and Directories
------------------------------------------------------------

namespace FS

/-
  `expand_temp_path`: the path and the suffix length, which
  is stored in an `int`.
-/
def expandTempPath (template : Str) :
    Except Exn (Str × Int32) :=
  let split :=
    match Str.rfind template slash with
    | some lastsep =>
        (template.take (lastsep + 1),
          template.drop (lastsep + 1))
    | none => ([], template)
  let base := split.2
  if base = [] then
    .error (.usageError (str "empty basename not allowed"))
  else
    match
      (List.range base.length).reverse.find? fun i =>
        (str "\x7b\x7d").isPrefixOf (base.drop i) with
    | some pos =>
        .ok
          (split.1 ++ base.take pos ++ str "XXXXXX" ++
              base.drop (pos + 2),
            Int32.ofNat (base.length - pos - 2))
    | none => .ok (split.1 ++ base ++ str "XXXXXX", 0)

/- `make_tempfile`; the kernel fills in the path. -/
def makeTempfile
    (template : Str)
    (mkostemps : Str → Int32 → Sys (FileNum × Str)) :
    Except Exn (FileNum × Str) :=
  match expandTempPath template with
  | .error e => .error e
  | .ok (path, suffixlen) =>
      match mkostemps path suffixlen with
      | .ok made => .ok made
      | .error e => .error (.apiError e (str "mkostemps()"))

/- `make_tempdir`. -/
def makeTempdir
    (template : Str)
    (mkdtemp : Str → Sys Str) : Except Exn Str :=
  match mkdtemp (template ++ str "XXXXXX") with
  | .ok path => .ok path
  | .error e => .error (.apiError e (str "mkdtemp()"))

end FS

------------------------------------------------------------
-- TempFile and TempDir
------------------------------------------------------------

/-
  An object with the descriptor log of the process and what
  happened to temporary paths.
-/
structure TempFrame (T : Type) where
  this : T
  fds : List (Custody.Entry FileNum)
  events : List Event

namespace TempFrame

variable {T α : Type}

def assign (f : T → T) : Method (TempFrame T) Unit :=
  Command.modify fun s => { s with this := f s.this }

def record (event : Event) : Method (TempFrame T) Unit :=
  Command.modify fun s =>
    { s with events := event :: s.events }

/- The outcome of something that was computed before. -/
def lift : Except Exn α → Method (TempFrame T) α
| .ok a => pure a
| .error e => Command.raise e

end TempFrame

structure TempFile where
  mFd : FileDescriptor := {}
  mTmpPath : Str := []
deriving DecidableEq, Repr

namespace TempFile

/- `FileBase::close`. -/
def baseClose (closed : Sys Unit) :
    Method (TempFrame TempFile) Unit := do
  let s ← Command.get
  if s.this.mFd.valid then
    (FileDescriptor.close closed).focus
      (fun s => ⟨s.this.mFd, s.fds⟩)
      (fun t s =>
        { s with
          this := { s.this with mFd := t.this }
          fds := t.log })
  else pure ()

/- `fs::unlink_file` of the path of the object. -/
def unlinkFile (unlinked : Sys Unit) :
    Method (TempFrame TempFile) Unit := do
  let s ← Command.get
  match unlinked with
  | .ok () =>
      TempFrame.record (.attempted s.this.mTmpPath true)
  | .error e => do
      TempFrame.record (.attempted s.this.mTmpPath false)
      FS.throwFile s.this.mTmpPath "unlink()" e

def clearPath : Method (TempFrame TempFile) Unit :=
  TempFrame.assign fun f => { f with mTmpPath := [] }

def unlinkPath (unlinked : Sys Unit) :
    Method (TempFrame TempFile) Unit := do
  let s ← Command.get
  if s.this.mTmpPath ≠ [] then do
    (unlinkFile unlinked).handle fun e => do
      clearPath
      Command.raise e
    clearPath
  else pure ()

def close (closed unlinked : Sys Unit) :
    Method (TempFrame TempFile) Unit := do
  (baseClose closed).handle fun e => do
    unlinkPath unlinked
    Command.raise e
  unlinkPath unlinked

def openTemplate
    (template : Str)
    (closed unlinked : Sys Unit)
    (mkostemps : Str → Int32 → Sys (FileNum × Str)) :
    Method (TempFrame TempFile) Unit := do
  close closed unlinked
  let made ←
    TempFrame.lift (FS.makeTempfile template mkostemps)
  TempFrame.record (.created made.2)
  TempFrame.assign fun f => { f with mFd := ⟨made.1⟩ }
  TempFrame.assign fun f => { f with mTmpPath := made.2 }

/- `~TempFile` and after it `~FileBase`. -/
def destroy (closed unlinked : Sys Unit) :
    Method (TempFrame TempFile) Unit := do
  (close closed unlinked).handle fun e =>
    if e.isStd then pure () else Command.halt .terminate
  (baseClose closed).handle fun e =>
    if e.isStd then pure () else Command.halt .terminate

end TempFile

structure TempDir where
  mTmpPath : Str := []
deriving DecidableEq, Repr

namespace TempDir

/- `fs::remove_tree` of the path of the object. -/
def removeTree (removed : Except Exn Unit) :
    Method (TempFrame TempDir) Unit := do
  let s ← Command.get
  match removed with
  | .ok () =>
      TempFrame.record (.attempted s.this.mTmpPath true)
  | .error e => do
      TempFrame.record (.attempted s.this.mTmpPath false)
      Command.raise e

def close (removed : Except Exn Unit) :
    Method (TempFrame TempDir) Unit := do
  let s ← Command.get
  if s.this.mTmpPath ≠ [] then do
    removeTree removed
    TempFrame.assign fun _ => { mTmpPath := [] }
  else pure ()

/- What `create` makes after it closed the object. -/
def make
    (template : Str)
    (getWorkingDir : Except Exn Str)
    (mkdtemp : Str → Sys Str) : Except Exn Str :=
  match FS.normalizePath getWorkingDir template with
  | .ok path => FS.makeTempdir path mkdtemp
  | .error e => .error e

def create
    (template : Str)
    (removed : Except Exn Unit)
    (getWorkingDir : Except Exn Str)
    (mkdtemp : Str → Sys Str) :
    Method (TempFrame TempDir) Unit := do
  close removed
  let path ←
    TempFrame.lift (make template getWorkingDir mkdtemp)
  TempFrame.record (.created path)
  TempFrame.assign fun _ => { mTmpPath := path }

/- `~TempDir`. -/
def destroy (removed : Except Exn Unit) :
    Method (TempFrame TempDir) Unit :=
  (close removed).handle fun e =>
    if e.isStd then pure () else Command.halt .terminate

end TempDir

------------------------------------------------------------
-- What Member Functions Do to Paths
------------------------------------------------------------

namespace TempFile

/- Closing the descriptor is none of the path's business. -/
theorem run_baseClose
    (closed : Sys Unit) (s : TempFrame TempFile) :
    ∃ o s', (baseClose closed).run s = (o, s') ∧
      (o = .returned () ∨ ∃ e, o = .raised e ∧ e.isStd) ∧
      s'.this.mTmpPath = s.this.mTmpPath ∧
      s'.events = s.events := by
  unfold baseClose
  rw [Command.run_bind_returned (Command.run_get s)]
  by_cases hValid : s.this.mFd.valid = true
  · rw [if_pos hValid, Command.run_focus,
      FileDescriptor.run_close]
    simp only [hValid, if_true]
    cases closed with
    | ok _ => exact ⟨_, _, rfl, Or.inl rfl, rfl, rfl⟩
    | error e =>
        exact ⟨_, _, rfl, Or.inr ⟨_, rfl, rfl⟩, rfl, rfl⟩
  · rw [if_neg hValid]
    exact ⟨_, _, rfl, Or.inl rfl, rfl, rfl⟩

/- The path is removed, or at least that is attempted. -/
theorem run_unlinkPath
    (unlinked : Sys Unit) (s : TempFrame TempFile) :
    ∃ o s', (unlinkPath unlinked).run s = (o, s') ∧
      (o = .returned () ∨ ∃ e, o = .raised e ∧ e.isStd) ∧
      s'.this.mTmpPath = [] ∧
      Disposed s.this.mTmpPath s.events [] s'.events := by
  unfold unlinkPath
  rw [Command.run_bind_returned (Command.run_get s)]
  by_cases hSome : s.this.mTmpPath ≠ []
  · rw [if_pos hSome]
    cases unlinked with
    | ok _ =>
        exact
          ⟨_, _, rfl, Or.inl rfl, rfl, .removed true hSome⟩
    | error e =>
        exact
          ⟨_, _, rfl, Or.inr ⟨_, rfl, rfl⟩, rfl,
            .removed false hSome⟩
  · rw [if_neg hSome]
    have hNone : s.this.mTmpPath = [] :=
      Classical.not_not.mp hSome
    refine ⟨_, _, rfl, Or.inl rfl, hNone, ?_⟩
    rw [hNone]
    exact .untouched

theorem run_close
    (closed unlinked : Sys Unit) (s : TempFrame TempFile) :
    ∃ o s', (close closed unlinked).run s = (o, s') ∧
      (o = .returned () ∨ ∃ e, o = .raised e ∧ e.isStd) ∧
      s'.this.mTmpPath = [] ∧
      Disposed s.this.mTmpPath s.events [] s'.events := by
  rcases run_baseClose closed s with
    ⟨o, s', hRun, hEnd, hPath, hEvents⟩
  rcases run_unlinkPath unlinked s' with
    ⟨o', s'', hRun', hEnd', hPath', hDisposed⟩
  rw [hPath, hEvents] at hDisposed
  rcases hEnd with rfl | ⟨e, rfl, hStd⟩
  · refine ⟨o', s'', ?_, hEnd', hPath', hDisposed⟩
    unfold close
    rw [Command.run_bind, Command.run_handle, hRun]
    exact hRun'
  · rcases hEnd' with rfl | ⟨e', rfl, hStd'⟩
    · refine
        ⟨.raised e, s'', ?_, Or.inr ⟨e, rfl, hStd⟩, hPath',
          hDisposed⟩
      unfold close
      rw [Command.run_bind, Command.run_handle, hRun]
      simp only [Command.run_bind, hRun', Command.run_raise]
    · refine
        ⟨.raised e', s'', ?_, Or.inr ⟨e', rfl, hStd'⟩, hPath',
          hDisposed⟩
      unfold close
      rw [Command.run_bind, Command.run_handle, hRun]
      simp only [Command.run_bind, hRun']

/-
  An object that was opened has the path that was created
  after the old one was removed; one that could not be
  opened has none.
-/
theorem run_openTemplate
    (template : Str) (closed unlinked : Sys Unit)
    (mkostemps : Str → Int32 → Sys (FileNum × Str))
    (s : TempFrame TempFile) :
    ∃ events o s',
      (openTemplate template closed unlinked mkostemps).run
          s = (o, s') ∧
        (∀ h, o ≠ .halted h) ∧
        Disposed s.this.mTmpPath s.events [] events ∧
        ((o ≠ .returned () ∧ s'.this.mTmpPath = [] ∧
            s'.events = events) ∨
          ∃ made,
            o = .returned () ∧
              FS.makeTempfile template mkostemps =
                .ok made ∧
              s'.this.mTmpPath = made.2 ∧
              s'.events = .created made.2 :: events) := by
  rcases run_close closed unlinked s with
    ⟨o, s', hRun, hEnd, hPath, hDisposed⟩
  rcases hEnd with rfl | ⟨e, rfl, -⟩
  · cases hMade : FS.makeTempfile template mkostemps with
    | error e =>
        refine
          ⟨s'.events, .raised e, s', ?_, by simp, hDisposed,
            Or.inl ⟨by simp, hPath, rfl⟩⟩
        unfold openTemplate
        rw [Command.run_bind_returned hRun, hMade]
        rfl
    | ok made =>
        refine
          ⟨s'.events, .returned (),
            { s' with
              this := ⟨⟨made.1⟩, made.2⟩
              events := .created made.2 :: s'.events },
            ?_, by simp, hDisposed,
            Or.inr ⟨made, rfl, rfl, rfl, rfl⟩⟩
        unfold openTemplate
        rw [Command.run_bind_returned hRun, hMade]
        rfl
  · refine
      ⟨s'.events, .raised e, s', ?_, by simp, hDisposed,
        Or.inl ⟨by simp, hPath, rfl⟩⟩
    unfold openTemplate
    exact Command.run_bind_raised hRun _

theorem run_destroy
    (closed unlinked : Sys Unit) (s : TempFrame TempFile) :
    ∃ s', (destroy closed unlinked).run s =
        (.returned (), s') ∧
      s'.this.mTmpPath = [] ∧
      Disposed s.this.mTmpPath s.events [] s'.events := by
  rcases run_close closed unlinked s with
    ⟨o, s', hRun, hEnd, hPath, hDisposed⟩
  rcases run_baseClose closed s' with
    ⟨o', s'', hRun', hEnd', hPath', hEvents'⟩
  refine
    ⟨s'', ?_, hPath'.trans hPath, hEvents'.symm ▸ hDisposed⟩
  have hFirst :
      ((close closed unlinked).handle fun e =>
        if e.isStd then pure ()
        else Command.halt .terminate).run s =
        (.returned (), s') := by
    rw [Command.run_handle, hRun]
    rcases hEnd with rfl | ⟨e, rfl, hStd⟩
    · rfl
    · simp [hStd]
  unfold destroy
  rw [Command.run_bind_returned hFirst, Command.run_handle,
    hRun']
  rcases hEnd' with rfl | ⟨e, rfl, hStd⟩
  · rfl
  · simp [hStd]

end TempFile

namespace TempDir

/- The path is kept if its removal fails. -/
theorem run_close
    (removed : Except Exn Unit) (s : TempFrame TempDir) :
    ∃ o s', (close removed).run s = (o, s') ∧
      (∀ h, o ≠ .halted h) ∧
      Disposed s.this.mTmpPath s.events s'.this.mTmpPath
        s'.events ∧
      (o = .returned () → s'.this.mTmpPath = []) ∧
      (o ≠ .returned () →
        s.this.mTmpPath ≠ [] ∧ ∃ e, removed = .error e) := by
  unfold close
  rw [Command.run_bind_returned (Command.run_get s)]
  by_cases hSome : s.this.mTmpPath ≠ []
  · rw [if_pos hSome]
    cases removed with
    | ok _ =>
        exact
          ⟨_, _, rfl, nofun, .removed true hSome,
            fun _ => rfl, fun hNot => absurd rfl hNot⟩
    | error e =>
        exact
          ⟨_, _, rfl, nofun, .retained hSome, nofun,
            fun _ => ⟨hSome, e, rfl⟩⟩
  · rw [if_neg hSome]
    exact
      ⟨_, _, rfl, nofun, .untouched,
        fun _ => Classical.not_not.mp hSome,
        fun hNot => absurd rfl hNot⟩

theorem run_create
    (template : Str) (removed : Except Exn Unit)
    (getWorkingDir : Except Exn Str)
    (mkdtemp : Str → Sys Str) (s : TempFrame TempDir) :
    ∃ events o s',
      (create template removed getWorkingDir mkdtemp).run s =
          (o, s') ∧
        (∀ h, o ≠ .halted h) ∧
        ((o ≠ .returned () ∧
            Disposed s.this.mTmpPath s.events
              s'.this.mTmpPath events ∧
            s'.events = events ∧
            (s.this.mTmpPath = [] ∨ removed = .ok () →
              s'.this.mTmpPath = [])) ∨
          ∃ path,
            o = .returned () ∧
              make template getWorkingDir mkdtemp =
                .ok path ∧
              Disposed s.this.mTmpPath s.events [] events ∧
              s'.this.mTmpPath = path ∧
              s'.events = .created path :: events) := by
  rcases run_close removed s with
    ⟨o, s', hRun, hEnd, hDisposed, hClosed, hFailed⟩
  rcases o with ⟨⟨⟩⟩ | ⟨e⟩ | ⟨h⟩
  · have hPath := hClosed rfl
    cases hMade : make template getWorkingDir mkdtemp with
    | error e =>
        refine
          ⟨s'.events, .raised e, s', ?_, nofun,
            Or.inl ⟨nofun, hDisposed, rfl, fun _ => hPath⟩⟩
        unfold create
        rw [Command.run_bind_returned hRun, hMade]
        rfl
    | ok path =>
        rw [hPath] at hDisposed
        refine
          ⟨s'.events, .returned (),
            { s' with
              this := ⟨path⟩
              events := .created path :: s'.events },
            ?_, nofun,
            Or.inr ⟨path, rfl, rfl, hDisposed, rfl, rfl⟩⟩
        unfold create
        rw [Command.run_bind_returned hRun, hMade]
        rfl
  · rcases hFailed nofun with ⟨hSome, e', hRemoved⟩
    refine
      ⟨s'.events, .raised e, s', ?_, nofun,
        Or.inl ⟨nofun, hDisposed, rfl, ?_⟩⟩
    · unfold create
      exact Command.run_bind_raised hRun _
    · rintro (hNone | hOk)
      · exact absurd hNone hSome
      · rw [hRemoved] at hOk
        cases hOk
  · exact absurd rfl (hEnd h)

/-
  The destructor. Its object may be left by a failure that
  is no `std::exception`, and else the path is given up.
-/
theorem run_destroy
    (removed : Except Exn Unit) (s : TempFrame TempDir) :
    ∃ o s', (destroy removed).run s = (o, s') ∧
      Disposed s.this.mTmpPath s.events s'.this.mTmpPath
        s'.events ∧
      Disposed s.this.mTmpPath s.events [] s'.events := by
  unfold destroy close
  rw [Command.run_handle,
    Command.run_bind_returned (Command.run_get s)]
  by_cases hSome : s.this.mTmpPath ≠ []
  · rw [if_pos hSome]
    cases removed with
    | ok _ =>
        exact
          ⟨_, _, rfl, .removed true hSome,
            .removed true hSome⟩
    | error e =>
        have hRemove :
            (removeTree (.error e)).run s =
              (.raised e,
                { s with
                  events :=
                    .attempted s.this.mTmpPath false ::
                      s.events }) := rfl
        rw [Command.run_bind_raised hRemove]
        by_cases hStd : e.isStd = true
        · refine
            ⟨.returned (),
              { s with
                events :=
                  .attempted s.this.mTmpPath false ::
                    s.events },
              ?_, .retained hSome, .removed false hSome⟩
          simp only [hStd, if_true]
          rfl
        · refine
            ⟨.halted .terminate,
              { s with
                events :=
                  .attempted s.this.mTmpPath false ::
                    s.events },
              ?_, .retained hSome, .removed false hSome⟩
          simp only [hStd]
          rfl
  · rw [if_neg hSome]
    have hNone : s.this.mTmpPath = [] :=
      Classical.not_not.mp hSome
    refine ⟨_, _, rfl, .untouched, ?_⟩
    rw [hNone]
    exact .untouched

end TempDir

------------------------------------------------------------
-- Objects and Operations
------------------------------------------------------------

namespace TempPath

/- An object of one of the two classes. -/
inductive Owner where
| file (f : TempFile)
| dir (d : TempDir)
deriving DecidableEq, Repr

def Owner.path : Owner → Str
| .file f => f.mTmpPath
| .dir d => d.mTmpPath

/- The live objects by their places. -/
structure World (ι : Type) where
  objs : ι → Option Owner
  fds : List (Custody.Entry FileNum)
  events : List Event
  ended : Bool

/- What is to be removed at a place. -/
def World.paths {ι : Type} (w : World ι) (h : ι) : Str :=
  match w.objs h with
  | none => []
  | some o => o.path

/-
  Operations on the object at `h`. The constructors that
  take a template are a default constructor followed by
  `openFile` or `createDir`.
-/
inductive Op (ι : Type) where
| constructFile (h : ι)
| constructDir (h : ι)
| openFile
    (h : ι) (template : Str) (closed unlinked : Sys Unit)
    (mkostemps : Str → Int32 → Sys (FileNum × Str))
| createDir
    (h : ι) (template : Str) (removed : Except Exn Unit)
    (getWorkingDir : Except Exn Str)
    (mkdtemp : Str → Sys Str)
| closeFile (h : ι) (closed unlinked : Sys Unit)
| closeDir (h : ι) (removed : Except Exn Unit)
| moveConstruct (h k : ι)
| moveAssign (h k : ι)
| destroyFile (h : ι) (closed unlinked : Sys Unit)
| destroyDir (h : ι) (removed : Except Exn Unit)

/- The object that an operation is called on. -/
def Op.this {ι : Type} : Op ι → ι
| .constructFile h => h
| .constructDir h => h
| .openFile h _ _ _ _ => h
| .createDir h _ _ _ _ => h
| .closeFile h _ _ => h
| .closeDir h _ => h
| .moveConstruct h _ => h
| .moveAssign h _ => h
| .destroyFile h _ _ => h
| .destroyDir h _ => h

section Worlds

variable {ι : Type} [DecidableEq ι]

/- A member function of a `TempFile` or a `TempDir`. -/
def World.callFile
    (w : World ι) (h : ι)
    (m : Method (TempFrame TempFile) Unit) : World ι :=
  match w.objs h with
  | some (.file f) =>
      let s := (m.run ⟨f, w.fds, w.events⟩).2
      { w with
        objs :=
          Function.update w.objs h (some (.file s.this))
        fds := s.fds
        events := s.events }
  | _ => w

def World.callDir
    (w : World ι) (h : ι)
    (m : Method (TempFrame TempDir) Unit) : World ι :=
  match w.objs h with
  | some (.dir d) =>
      let s := (m.run ⟨d, w.fds, w.events⟩).2
      { w with
        objs :=
          Function.update w.objs h (some (.dir s.this))
        fds := s.fds
        events := s.events }
  | _ => w

/-
  The move assignments: `m_tmp_path` first, and for files
  then the descriptor of the base class.
-/
def moveFrom (other : Owner) : Owner :=
  match other with
  | .file _ => .file { mFd := ⟨.invalid⟩, mTmpPath := [] }
  | .dir _ => .dir { mTmpPath := [] }

def World.move (w : World ι) (h k : ι) : World ι :=
  { w with
    objs :=
      Function.update (Function.update w.objs h (w.objs k)) k
        ((w.objs k).map moveFrom) }

/- The end of an object, or of the process. -/
def World.gone
    (w : World ι) (h : ι) (halted : Bool) : World ι :=
  if halted then { w with ended := true }
  else { w with objs := Function.update w.objs h none }

def Halted {α : Type} (o : Outcome Halt Exn α) : Bool :=
  match o with
  | .halted _ => true
  | _ => false

def World.step (w : World ι) : Op ι → World ι
| .constructFile h =>
    { w with
      objs := Function.update w.objs h (some (.file {})) }
| .constructDir h =>
    { w with
      objs := Function.update w.objs h (some (.dir {})) }
| .openFile h template closed unlinked mkostemps =>
    w.callFile h
      (TempFile.openTemplate template closed unlinked
        mkostemps)
| .createDir h template removed getWorkingDir mkdtemp =>
    w.callDir h
      (TempDir.create template removed getWorkingDir mkdtemp)
| .closeFile h closed unlinked =>
    w.callFile h (TempFile.close closed unlinked)
| .closeDir h removed => w.callDir h (TempDir.close removed)
| .moveConstruct h k => w.move h k
| .moveAssign h k => w.move h k
| .destroyFile h closed unlinked =>
    match w.objs h with
    | some (.file f) =>
        (w.callFile h (TempFile.destroy closed unlinked)).gone
          h
          (Halted
            ((TempFile.destroy closed unlinked).run
              ⟨f, w.fds, w.events⟩).1)
    | _ => w
| .destroyDir h removed =>
    match w.objs h with
    | some (.dir d) =>
        (w.callDir h (TempDir.destroy removed)).gone h
          (Halted
            ((TempDir.destroy removed).run
              ⟨d, w.fds, w.events⟩).1)
    | _ => w

/- A process in which no object was made yet. -/
def start : World ι where
  objs _ := none
  fds := []
  events := []
  ended := false

def IsFile : Option Owner → Prop
| some (.file _) => True
| _ => False

def IsDir : Option Owner → Prop
| some (.dir _) => True
| _ => False

/-
  Operations make sense on live objects of the right class;
  there is no move constructor for files. The kernel creates
  nothing under an empty path or under one that is there.
-/
def Op.Legal (w : World ι) (op : Op ι) : Prop :=
  w.ended = false ∧
    match op with
    | .constructFile h => w.objs h = none
    | .constructDir h => w.objs h = none
    | .openFile h template _ _ mkostemps =>
        IsFile (w.objs h) ∧
          ∀ made,
            FS.makeTempfile template mkostemps = .ok made →
            made.2 ≠ [] ∧ ∀ k, k ≠ h → w.paths k ≠ made.2
    | .createDir h template _ getWorkingDir mkdtemp =>
        IsDir (w.objs h) ∧
          ∀ path,
            TempDir.make template getWorkingDir mkdtemp =
                .ok path →
            path ≠ [] ∧ ∀ k, k ≠ h → w.paths k ≠ path
    | .closeFile h _ _ => IsFile (w.objs h)
    | .closeDir h _ => IsDir (w.objs h)
    | .moveConstruct h k =>
        w.objs h = none ∧ IsDir (w.objs k)
    | .moveAssign h k =>
        (IsFile (w.objs h) ∧ IsFile (w.objs k)) ∨
          (IsDir (w.objs h) ∧ IsDir (w.objs k))
    | .destroyFile h _ _ => IsFile (w.objs h)
    | .destroyDir h _ => IsDir (w.objs h)

/-
  Moving onto an object that still has to remove a path, of
  which no removal was attempted, loses that path.
-/
def Op.Faulty (w : World ι) : Op ι → Prop
| .moveAssign h _ => status (w.paths h) w.events = .pending
| _ => False

/- The creation fails, and nothing stood in its way. -/
def Op.CreationFails (w : World ι) : Op ι → Prop
| .openFile _ template _ _ mkostemps =>
    ∃ e, FS.makeTempfile template mkostemps = .error e
| .createDir h template removed getWorkingDir mkdtemp =>
    (w.paths h = [] ∨ removed = .ok ()) ∧
      ∃ e,
        TempDir.make template getWorkingDir mkdtemp = .error e
| _ => False

/-
  Every path of which no removal was attempted is at one
  object. What an operation attempts to remove is the path
  of its object, which was created and is not removed.
-/
structure Kept
    (w : World ι) (op : Op ι) (w' : World ι) : Prop where
  owned :
    ∀ p, status p w'.events = .pending →
      ∃ h, w'.paths h = p ∧ ∀ k, w'.paths k = p → k = h
  removals :
    ∃ new, w'.events = new ++ w.events ∧
      ∀ p success, .attempted p success ∈ new →
        p = w.paths op.this ∧ p ≠ [] ∧
          (status p w.events = .pending ∨
            status p w.events = .failed)
  refused :
    op.CreationFails w → w'.paths op.this = []

------------------------------------------------------------
-- One Operation
------------------------------------------------------------

/- The path of what may be at a place. -/
def pathOf : Option Owner → Str
| none => []
| some o => o.path

theorem paths_of_update
    {w w' : World ι} {h : ι} {o : Option Owner}
    (hObjs : w'.objs = Function.update w.objs h o) :
    w'.paths = Function.update w.paths h (pathOf o) := by
  funext k
  unfold World.paths
  rw [hObjs]
  by_cases hk : k = h
  · subst hk
    simp only [Function.update_self]
    cases o <;> rfl
  · simp only [Function.update_of_ne hk]

theorem paths_move (w : World ι) (h k : ι) :
    (w.move h k).paths =
      Function.update
        (Function.update w.paths h (w.paths k)) k [] := by
  have hLeft : pathOf ((w.objs k).map moveFrom) = [] := by
    rcases w.objs k with ⟨⟩ | ⟨⟨f⟩ | ⟨d⟩⟩ <;> rfl
  have hTaken : pathOf (w.objs k) = w.paths k := by
    unfold World.paths
    cases w.objs k <;> rfl
  have hFirst :
      World.paths
          { w with
            objs := Function.update w.objs h (w.objs k) } =
        Function.update w.paths h (pathOf (w.objs k)) :=
    paths_of_update rfl
  have hSecond :
      (w.move h k).paths =
        Function.update
          (World.paths
            { w with
              objs := Function.update w.objs h (w.objs k) })
          k (pathOf ((w.objs k).map moveFrom)) :=
    paths_of_update rfl
  rw [hSecond, hFirst, hTaken, hLeft]

/- What a disposal attempts is the path of the object. -/
theorem Disposed.removals
    {path path' : Str} {events events' : List Event}
    (hDisposed : Disposed path events path' events') :
    ∃ new, events' = new ++ events ∧
      ∀ p success, .attempted p success ∈ new →
        p = path ∧ p ≠ [] := by
  cases hDisposed with
  | untouched => exact ⟨[], rfl, nofun⟩
  | removed success hSome =>
      refine ⟨[.attempted path success], rfl, ?_⟩
      intro p success' hMem
      simp at hMem
      exact ⟨hMem.1, hMem.1 ▸ hSome⟩
  | retained hSome =>
      refine ⟨[.attempted path false], rfl, ?_⟩
      intro p success' hMem
      simp at hMem
      exact ⟨hMem.1, hMem.1 ▸ hSome⟩

/-
  A step that disposes of the path at `h` and then may
  create another one there.
-/
inductive Stepped (w : World ι) (h : ι) (w' : World ι) :
    Prop where
| disposed (path' : Str) :
    Disposed (w.paths h) w.events path' w'.events →
    w'.paths = Function.update w.paths h path' →
    Stepped w h w'
| renewed (events : List Event) (path' : Str) :
    Disposed (w.paths h) w.events [] events →
    w'.events = .created path' :: events →
    w'.paths = Function.update w.paths h path' →
    path' ≠ [] → (∀ k, k ≠ h → w.paths k ≠ path') →
    Stepped w h w'

theorem Stepped.books
    {w w' : World ι} {h : ι}
    (hBooks : Books w.paths w.events)
    (hStep : Stepped w h w') :
    Books w'.paths w'.events := by
  cases hStep with
  | disposed path' hDisposed hPaths =>
      rw [hPaths]
      exact hBooks.dispose hDisposed
  | renewed events path' hDisposed hEvents hPaths hPath
      hFresh =>
      have hMid := hBooks.dispose hDisposed
      have hNext :=
        hMid.create (h := h) (by simp) hPath (by
          intro k hk
          rw [Function.update_of_ne hk]
          exact hFresh k hk)
      rw [hPaths, hEvents]
      simpa using hNext

theorem Stepped.removals
    {w w' : World ι} {h : ι}
    (hBooks : Books w.paths w.events)
    (hStep : Stepped w h w') :
    ∃ new, w'.events = new ++ w.events ∧
      ∀ p success, .attempted p success ∈ new →
        p = w.paths h ∧ p ≠ [] ∧
          (status p w.events = .pending ∨
            status p w.events = .failed) := by
  cases hStep with
  | disposed path' hDisposed hPaths =>
      rcases hDisposed.removals with ⟨new, hNew, hPath⟩
      refine ⟨new, hNew, ?_⟩
      intro p success hMem
      rcases hPath p success hMem with ⟨rfl, hSome⟩
      exact ⟨rfl, hSome, hBooks.known h hSome⟩
  | renewed events path' hDisposed hEvents hPaths hPath'
      hFresh =>
      rcases hDisposed.removals with ⟨new, hNew, hPath⟩
      refine ⟨.created path' :: new, ?_, ?_⟩
      · rw [hEvents, hNew, List.cons_append]
      · intro p success hMem
        have hTail : .attempted p success ∈ new := by
          simpa using hMem
        rcases hPath p success hTail with ⟨rfl, hSome⟩
        exact ⟨rfl, hSome, hBooks.known h hSome⟩

omit [DecidableEq ι] in
theorem exists_file_of_isFile
    {w : World ι} {h : ι} (hFile : IsFile (w.objs h)) :
    ∃ f, w.objs h = some (.file f) := by
  cases hObj : w.objs h with
  | none =>
      rw [hObj] at hFile
      exact hFile.elim
  | some o =>
      rw [hObj] at hFile
      cases o with
      | file f => exact ⟨f, rfl⟩
      | dir d => exact hFile.elim

omit [DecidableEq ι] in
theorem exists_dir_of_isDir
    {w : World ι} {h : ι} (hDir : IsDir (w.objs h)) :
    ∃ d, w.objs h = some (.dir d) := by
  cases hObj : w.objs h with
  | none =>
      rw [hObj] at hDir
      exact hDir.elim
  | some o =>
      rw [hObj] at hDir
      cases o with
      | file f => exact hDir.elim
      | dir d => exact ⟨d, rfl⟩

omit [DecidableEq ι] in
theorem paths_of_file
    {w : World ι} {h : ι} {f : TempFile}
    (hObj : w.objs h = some (.file f)) :
    w.paths h = f.mTmpPath := by
  unfold World.paths
  rw [hObj]
  rfl

omit [DecidableEq ι] in
theorem paths_of_dir
    {w : World ι} {h : ι} {d : TempDir}
    (hObj : w.objs h = some (.dir d)) :
    w.paths h = d.mTmpPath := by
  unfold World.paths
  rw [hObj]
  rfl

omit [DecidableEq ι] in
theorem paths_of_none
    {w : World ι} {h : ι} (hObj : w.objs h = none) :
    w.paths h = [] := by
  unfold World.paths
  rw [hObj]

theorem callFile_eq
    {w : World ι} {h : ι} {f : TempFile}
    {m : Method (TempFrame TempFile) Unit}
    {o : Outcome Halt Exn Unit} {s' : TempFrame TempFile}
    (hObj : w.objs h = some (.file f))
    (hRun : m.run ⟨f, w.fds, w.events⟩ = (o, s')) :
    (w.callFile h m).paths =
        Function.update w.paths h s'.this.mTmpPath ∧
      (w.callFile h m).events = s'.events := by
  have hCall : w.callFile h m =
      { w with
        objs :=
          Function.update w.objs h (some (.file s'.this))
        fds := s'.fds
        events := s'.events } := by
    unfold World.callFile
    rw [hObj]
    simp only [hRun]
  have hPaths :
      (w.callFile h m).paths =
        Function.update w.paths h
          (pathOf (some (.file s'.this))) :=
    paths_of_update (by rw [hCall])
  refine ⟨hPaths, ?_⟩
  rw [hCall]

theorem callDir_eq
    {w : World ι} {h : ι} {d : TempDir}
    {m : Method (TempFrame TempDir) Unit}
    {o : Outcome Halt Exn Unit} {s' : TempFrame TempDir}
    (hObj : w.objs h = some (.dir d))
    (hRun : m.run ⟨d, w.fds, w.events⟩ = (o, s')) :
    (w.callDir h m).paths =
        Function.update w.paths h s'.this.mTmpPath ∧
      (w.callDir h m).events = s'.events := by
  have hCall : w.callDir h m =
      { w with
        objs :=
          Function.update w.objs h (some (.dir s'.this))
        fds := s'.fds
        events := s'.events } := by
    unfold World.callDir
    rw [hObj]
    simp only [hRun]
  have hPaths :
      (w.callDir h m).paths =
        Function.update w.paths h
          (pathOf (some (.dir s'.this))) :=
    paths_of_update (by rw [hCall])
  refine ⟨hPaths, ?_⟩
  rw [hCall]

/- An object comes where there was none. -/
theorem stepped_construct
    {w : World ι} {h : ι} {o : Owner}
    (hNone : w.objs h = none)
    (hBlank : o.path = []) :
    Stepped w h
      { w with objs := Function.update w.objs h (some o) } := by
  refine .disposed (w.paths h) .untouched ?_
  have hPaths :
      World.paths
          { w with
            objs := Function.update w.objs h (some o) } =
        Function.update w.paths h (pathOf (some o)) :=
    paths_of_update rfl
  have hNew : pathOf (some o) = [] := hBlank
  rw [hPaths, hNew, paths_of_none hNone]

theorem stepped_openFile
    {w : World ι} {h : ι} {template : Str}
    {closed unlinked : Sys Unit}
    {mkostemps : Str → Int32 → Sys (FileNum × Str)}
    (hLegal :
      (Op.openFile h template closed unlinked
        mkostemps).Legal w) :
    Stepped w h
        (w.step
          (.openFile h template closed unlinked
            mkostemps)) ∧
      ((∃ e,
          FS.makeTempfile template mkostemps = .error e) →
        (w.step
          (.openFile h template closed unlinked
            mkostemps)).paths h = []) := by
  rcases hLegal with ⟨-, hFile, hFresh⟩
  rcases exists_file_of_isFile hFile with ⟨f, hObj⟩
  rcases TempFile.run_openTemplate template closed unlinked
      mkostemps ⟨f, w.fds, w.events⟩ with
    ⟨events, o, s', hRun, -, hDisposed, hCases⟩
  rcases callFile_eq hObj hRun with ⟨hPaths, hEvents⟩
  rw [← paths_of_file hObj] at hDisposed
  rcases hCases with
    ⟨-, hNone, hSame⟩ | ⟨made, -, hMade, hPath, hNew⟩
  · rw [hNone] at hPaths
    rw [hSame] at hEvents
    refine ⟨.disposed [] ?_ hPaths, fun _ => ?_⟩
    · simp only [World.step, hEvents]
      exact hDisposed
    · simp only [World.step, hPaths, Function.update_self]
  · rcases hFresh made hMade with ⟨hSome, hOthers⟩
    rw [hPath] at hPaths
    rw [hNew] at hEvents
    refine
      ⟨.renewed events made.2 hDisposed hEvents hPaths hSome
        hOthers, ?_⟩
    rintro ⟨e, hFails⟩
    rw [hMade] at hFails
    cases hFails

theorem stepped_createDir
    {w : World ι} {h : ι} {template : Str}
    {removed : Except Exn Unit}
    {getWorkingDir : Except Exn Str}
    {mkdtemp : Str → Sys Str}
    (hLegal :
      (Op.createDir h template removed getWorkingDir
        mkdtemp).Legal w) :
    Stepped w h
        (w.step
          (.createDir h template removed getWorkingDir
            mkdtemp)) ∧
      ((w.paths h = [] ∨ removed = .ok ()) →
        (∃ e,
          TempDir.make template getWorkingDir mkdtemp =
            .error e) →
        (w.step
          (.createDir h template removed getWorkingDir
            mkdtemp)).paths h = []) := by
  rcases hLegal with ⟨-, hDir, hFresh⟩
  rcases exists_dir_of_isDir hDir with ⟨d, hObj⟩
  rcases TempDir.run_create template removed getWorkingDir
      mkdtemp ⟨d, w.fds, w.events⟩ with
    ⟨events, o, s', hRun, -, hCases⟩
  rcases callDir_eq hObj hRun with ⟨hPaths, hEvents⟩
  rcases hCases with
    ⟨-, hDisposed, hSame, hNone⟩ |
      ⟨path, -, hMade, hDisposed, hPath, hNew⟩
  · rw [← paths_of_dir hObj] at hDisposed hNone
    rw [hSame] at hEvents
    refine ⟨.disposed s'.this.mTmpPath ?_ hPaths, ?_⟩
    · simp only [World.step, hEvents]
      exact hDisposed
    · intro hReady _
      simp only [World.step, hPaths, Function.update_self]
      exact hNone hReady
  · rw [← paths_of_dir hObj] at hDisposed
    rcases hFresh path hMade with ⟨hSome, hOthers⟩
    rw [hPath] at hPaths
    rw [hNew] at hEvents
    refine
      ⟨.renewed events path hDisposed hEvents hPaths hSome
        hOthers, ?_⟩
    rintro - ⟨e, hFails⟩
    rw [hMade] at hFails
    cases hFails

theorem paths_gone (w : World ι) (h : ι) :
    (w.gone h false).paths =
      Function.update w.paths h [] := by
  have hPaths :
      (w.gone h false).paths =
        Function.update w.paths h (pathOf none) :=
    paths_of_update (by simp [World.gone])
  exact hPaths

/- An object is gone, and its path with it. -/
theorem stepped_gone
    {w w' : World ι} {h : ι} {path' : Str}
    (hPaths : w'.paths = Function.update w.paths h path')
    (hDisposed :
      Disposed (w.paths h) w.events [] w'.events) :
    Stepped w h (w'.gone h false) := by
  refine .disposed [] hDisposed ?_
  rw [paths_gone, hPaths, Function.update_idem]

theorem stepped_closeFile
    {w : World ι} {h : ι} {closed unlinked : Sys Unit}
    (hFile : IsFile (w.objs h)) :
    Stepped w h (w.step (.closeFile h closed unlinked)) := by
  rcases exists_file_of_isFile hFile with ⟨f, hObj⟩
  rcases TempFile.run_close closed unlinked
      ⟨f, w.fds, w.events⟩ with
    ⟨o, s', hRun, -, hNone, hDisposed⟩
  rcases callFile_eq hObj hRun with ⟨hPaths, hEvents⟩
  rw [← paths_of_file hObj, ← hEvents] at hDisposed
  rw [hNone] at hPaths
  exact .disposed [] hDisposed hPaths

theorem stepped_closeDir
    {w : World ι} {h : ι} {removed : Except Exn Unit}
    (hDir : IsDir (w.objs h)) :
    Stepped w h (w.step (.closeDir h removed)) := by
  rcases exists_dir_of_isDir hDir with ⟨d, hObj⟩
  rcases TempDir.run_close removed ⟨d, w.fds, w.events⟩ with
    ⟨o, s', hRun, -, hDisposed, -, -⟩
  rcases callDir_eq hObj hRun with ⟨hPaths, hEvents⟩
  rw [← paths_of_dir hObj, ← hEvents] at hDisposed
  exact .disposed s'.this.mTmpPath hDisposed hPaths

theorem stepped_destroyFile
    {w : World ι} {h : ι} {closed unlinked : Sys Unit}
    (hFile : IsFile (w.objs h)) :
    Stepped w h
      (w.step (.destroyFile h closed unlinked)) := by
  rcases exists_file_of_isFile hFile with ⟨f, hObj⟩
  rcases TempFile.run_destroy closed unlinked
      ⟨f, w.fds, w.events⟩ with ⟨s', hRun, -, hDisposed⟩
  rcases callFile_eq hObj hRun with ⟨hPaths, hEvents⟩
  rw [← paths_of_file hObj, ← hEvents] at hDisposed
  have hStep :
      w.step (.destroyFile h closed unlinked) =
        (w.callFile h
          (TempFile.destroy closed unlinked)).gone h
          false := by
    simp only [World.step, hObj, hRun, Halted]
  rw [hStep]
  exact stepped_gone hPaths hDisposed

theorem stepped_destroyDir
    {w : World ι} {h : ι} {removed : Except Exn Unit}
    (hDir : IsDir (w.objs h)) :
    Stepped w h (w.step (.destroyDir h removed)) := by
  rcases exists_dir_of_isDir hDir with ⟨d, hObj⟩
  rcases TempDir.run_destroy removed
      ⟨d, w.fds, w.events⟩ with
    ⟨o, s', hRun, hKept, hGone⟩
  rcases callDir_eq hObj hRun with ⟨hPaths, hEvents⟩
  rw [← paths_of_dir hObj, ← hEvents] at hKept hGone
  have hStep :
      w.step (.destroyDir h removed) =
        (w.callDir h (TempDir.destroy removed)).gone h
          (Halted o) := by
    simp only [World.step, hObj, hRun]
  rw [hStep]
  cases hHalted : Halted o with
  | false => exact stepped_gone hPaths hGone
  | true =>
      refine .disposed s'.this.mTmpPath ?_ ?_
      · exact hKept
      · exact hPaths

/- What an operation that is no move does to the paths. -/
theorem stepped_of_legal
    {w : World ι} {op : Op ι}
    (hLegal : op.Legal w) :
    Stepped w op.this (w.step op) ∨
      ∃ h k,
        (op = .moveConstruct h k ∧ w.objs h = none) ∨
          op = .moveAssign h k := by
  cases op with
  | constructFile h =>
      exact Or.inl (stepped_construct hLegal.2 rfl)
  | constructDir h =>
      exact Or.inl (stepped_construct hLegal.2 rfl)
  | openFile h template closed unlinked mkostemps =>
      exact Or.inl (stepped_openFile hLegal).1
  | createDir h template removed getWorkingDir mkdtemp =>
      exact Or.inl (stepped_createDir hLegal).1
  | closeFile h closed unlinked =>
      exact Or.inl (stepped_closeFile hLegal.2)
  | closeDir h removed =>
      exact Or.inl (stepped_closeDir hLegal.2)
  | moveConstruct h k =>
      exact Or.inr ⟨h, k, Or.inl ⟨rfl, hLegal.2.1⟩⟩
  | moveAssign h k => exact Or.inr ⟨h, k, Or.inr rfl⟩
  | destroyFile h closed unlinked =>
      exact Or.inl (stepped_destroyFile hLegal.2)
  | destroyDir h removed =>
      exact Or.inl (stepped_destroyDir hLegal.2)

------------------------------------------------------------
-- Runs
------------------------------------------------------------

omit [DecidableEq ι] in
theorem books_start :
    Books (start : World ι).paths (start : World ι).events where
  owned := nofun
  known := fun _ hSome => (hSome rfl).elim
  single := fun _ _ hSome => (hSome rfl).elim

theorem books_step
    {w : World ι} {op : Op ι}
    (hBooks : Books w.paths w.events)
    (hLegal : op.Legal w)
    (hGood : ¬ op.Faulty w) :
    Books (w.step op).paths (w.step op).events ∧
      ∃ new, (w.step op).events = new ++ w.events ∧
        ∀ p success, .attempted p success ∈ new →
          p = w.paths op.this ∧ p ≠ [] ∧
            (status p w.events = .pending ∨
              status p w.events = .failed) := by
  rcases stepped_of_legal hLegal with
    hStep | ⟨h, k, ⟨rfl, hNone⟩ | rfl⟩
  · exact ⟨hStep.books hBooks, hStep.removals hBooks⟩
  · refine ⟨?_, [], rfl, nofun⟩
    have hBlank :
        status (w.paths h) w.events ≠ .pending := by
      intro hPending
      rw [paths_of_none hNone] at hPending
      exact (hBooks.owned [] hPending).1 rfl
    simp only [World.step, paths_move]
    exact hBooks.move hBlank
  · refine ⟨?_, [], rfl, nofun⟩
    simp only [World.step, paths_move]
    exact hBooks.move hGood

theorem refused_step
    {w : World ι} {op : Op ι}
    (hLegal : op.Legal w)
    (hFails : op.CreationFails w) :
    (w.step op).paths op.this = [] := by
  cases op with
  | openFile h template closed unlinked mkostemps =>
      exact (stepped_openFile hLegal).2 hFails
  | createDir h template removed getWorkingDir mkdtemp =>
      exact
        (stepped_createDir hLegal).2 hFails.1 hFails.2
  | _ => exact hFails.elim

def machine : Machine (World ι) (Op ι) where
  legal w op := op.Legal w
  step := World.step

/-
  In a run of operations on temporary files and directories
  their paths are kept exactly as long as no operation is
  faulty.
-/
theorem paths_kept_along_iff
    (ops : List (Op ι))
    (hLegal : machine.Legal start ops) :
    machine.Along Kept start ops ↔
      machine.Along (fun w op _ => ¬ op.Faulty w) start
        ops := by
  refine
    Machine.along_iff_of_invariant
      (fun w => Books w.paths w.events)
      ?_ ?_ ops start books_start hLegal
  · intro w op hBooks hOp hGood
    rcases books_step hBooks hOp hGood with
      ⟨hAfter, hRemovals⟩
    refine
      ⟨hAfter,
        { owned := ?_
          removals := hRemovals
          refused := refused_step hOp }⟩
    intro p hPending
    rcases hAfter.owned p hPending with ⟨hSome, h, hPath⟩
    refine ⟨h, hPath, ?_⟩
    intro k hk
    replace hk : (w.step op).paths k = p := hk
    have hSame : (w.step op).paths k = (w.step op).paths h :=
      hk.trans hPath.symm
    exact hAfter.single k h (hk.symm ▸ hSome) hSame
  · intro w op hBooks hOp hFaulty hKept
    replace hFaulty := Classical.not_not.mp hFaulty
    cases op with
    | moveAssign h k =>
        rcases hKept.owned (w.paths h) hFaulty with
          ⟨l, hPath, -⟩
        simp only [machine, World.step, paths_move] at hPath
        exact hBooks.not_owned_move hFaulty l hPath
    | _ => exact hFaulty

end Worlds

/- The kernel is free to choose any path. -/
theorem eq_of_make
    {template path path' : Str}
    {getWorkingDir : Except Exn Str}
    (hMade :
      TempDir.make template getWorkingDir
        (fun _ => .ok path) = .ok path') :
    path' = path := by
  unfold TempDir.make FS.makeTempdir at hMade
  cases hNormal : FS.normalizePath getWorkingDir template with
  | ok p =>
      rw [hNormal] at hMade
      cases hMade
      rfl
  | error e =>
      rw [hNormal] at hMade
      cases hMade

/-
  A directory cannot be removed at first, is moved from, and
  is removed when its new owner is destroyed.
-/
theorem kept_along_moved :
    machine.Along Kept (start : World Bool)
      [.constructDir true,
        .createDir true (str "/a") (.ok ()) (.ok (str "/"))
          (fun _ => .ok (str "/aXYZABC")),
        .closeDir true (.error (.usageError (str "busy"))),
        .moveConstruct false true,
        .destroyDir true (.ok ()),
        .destroyDir false (.ok ())] := by
  refine
    (paths_kept_along_iff
      [.constructDir true,
        .createDir true (str "/a") (.ok ()) (.ok (str "/"))
          (fun _ => .ok (str "/aXYZABC")),
        .closeDir true (.error (.usageError (str "busy"))),
        .moveConstruct false true,
        .destroyDir true (.ok ()),
        .destroyDir false (.ok ())] ?_).mpr ?_
  · refine
      ⟨⟨rfl, rfl⟩, ⟨rfl, trivial, ?_⟩, ⟨rfl, trivial⟩,
        ⟨rfl, rfl, trivial⟩, ⟨rfl, trivial⟩, ⟨?_, ?_⟩,
        trivial⟩
    · intro path hMade
      rw [eq_of_make hMade]
      refine ⟨by simp [str], ?_⟩
      intro k hk
      cases k with
      | true => exact absurd rfl hk
      | false =>
          show [] ≠ str "/aXYZABC"
          decide
    · rfl
    · trivial
  · exact ⟨id, id, id, id, id, id, trivial⟩

/-
  A temporary file is moved onto an object that has one: no
  removal of the file `aXXXXXX` there is ever attempted.
-/
theorem moveAssign_drops_path :
    machine.Legal (start : World Bool)
        [.constructFile true, .constructFile false,
          .openFile true (str "a") (.ok ()) (.ok ())
            (fun path _ => .ok (⟨3⟩, path)),
          .openFile false (str "b") (.ok ()) (.ok ())
            (fun path _ => .ok (⟨4⟩, path)),
          .moveAssign true false,
          .destroyFile true (.ok ()) (.ok ()),
          .destroyFile false (.ok ()) (.ok ())] ∧
      (machine.run (start : World Bool)
          [.constructFile true, .constructFile false,
            .openFile true (str "a") (.ok ()) (.ok ())
              (fun path _ => .ok (⟨3⟩, path)),
            .openFile false (str "b") (.ok ()) (.ok ())
              (fun path _ => .ok (⟨4⟩, path)),
            .moveAssign true false,
            .destroyFile true (.ok ()) (.ok ()),
            .destroyFile false (.ok ()) (.ok ())]).events =
        [.attempted (str "bXXXXXX") true,
          .created (str "bXXXXXX"),
          .created (str "aXXXXXX")] ∧
      ¬ machine.Along Kept (start : World Bool)
        [.constructFile true, .constructFile false,
          .openFile true (str "a") (.ok ()) (.ok ())
            (fun path _ => .ok (⟨3⟩, path)),
          .openFile false (str "b") (.ok ()) (.ok ())
            (fun path _ => .ok (⟨4⟩, path)),
          .moveAssign true false,
          .destroyFile true (.ok ()) (.ok ()),
          .destroyFile false (.ok ()) (.ok ())] := by
  refine
    ⟨⟨⟨rfl, rfl⟩, ⟨rfl, rfl⟩, ⟨rfl, trivial, ?_⟩,
      ⟨rfl, trivial, ?_⟩,
      ⟨rfl, Or.inl ⟨trivial, trivial⟩⟩,
      ⟨rfl, trivial⟩, ⟨rfl, trivial⟩, trivial⟩, rfl, ?_⟩
  · rintro made ⟨⟩
    decide
  · rintro made ⟨⟩
    decide
  · rintro ⟨-, -, -, -, hKept, -⟩
    rcases hKept.owned (str "aXXXXXX") (by decide) with
      ⟨h, hPath, -⟩
    cases h with
    | true => exact absurd hPath (by decide)
    | false => exact absurd hPath (by decide)

end TempPath

end Cosmos
