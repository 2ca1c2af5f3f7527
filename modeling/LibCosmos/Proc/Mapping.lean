import LibCosmos.Core.BitMask
import LibCosmos.Core.Ledger
import LibCosmos.FS.FileDescriptor
import LibCosmos.Foundation.Machine

/-
  Memory mappings and the objects that own them
  (`include/proc/Mapping.hxx`, `src/proc/mman.cxx`).

  The resources are the pages of the address space, by their
  numbers. Sizes of mappings are in bytes, and the kernel
  maps and unmaps every page that is touched. Pages of a
  mapping that `munmap()` refused to unmap are given up,
  which the log shows as handed out.

  Main declarations:
    * `Mapping.unmap`, `Mapping.remap`
    * `Mapping.World.step`, `Mapping.Op.Legal`,
      `Mapping.Op.Faulty`
    * `Mapping.Kept`
    * `Mapping.kept_along_iff`
-/

namespace Cosmos

open Custody

/- The size of a page. -/
structure PageSize where
  bytes : Nat
  pos : 0 < bytes

/- The pages from an address on that hold some bytes. -/
def PageSize.pages
    (page : PageSize) (addr size : Nat) : List Nat :=
  List.range' (addr / page.bytes)
    ((size + page.bytes - 1) / page.bytes)

/- A null pointer is address 0. -/
structure Mapping where
  mAddr : Nat := 0
  mSize : Nat := 0
deriving DecidableEq, Repr

/- `RemapFlag`. -/
namespace RemapFlag

def fixed : BitVec 32 := 2
def dontUnmap : BitVec 32 := 4

end RemapFlag

------------------------------------------------------------
-- System Calls
------------------------------------------------------------

namespace Mem

/- `mem::map`; its settings are for the kernel. -/
def map (answer : Sys Nat) : Except Exn Nat :=
  match answer with
  | .ok addr => .ok addr
  | .error e => .error (.apiError e (str "mmap()"))

/- `mem::unmap`. -/
def unmap (answer : Sys Unit) : Except Exn Unit :=
  match answer with
  | .ok () => .ok ()
  | .error e => .error (.apiError e (str "munmap()"))

/- `mem::remap`. -/
def remap
    (flags : BitMask 32)
    (newAddr : Option Nat)
    (answer : Sys Nat) : Except Exn Nat :=
  match flags.test RemapFlag.fixed with
  | .error e => .error e
  | .ok fixed =>
      if fixed && newAddr.isNone then
        .error (.usageError
          (str "missing new_addr argument along with FIXED"))
      else if !fixed && newAddr.isSome then
        .error (.usageError
          (str "unexpected new_addr argument without FIXED"))
      else
        match answer with
        | .ok addr => .ok addr
        | .error e =>
            .error (.apiError e (str "mremap()"))

end Mem

namespace Mapping

------------------------------------------------------------
-- Member Functions
------------------------------------------------------------

section Members

variable (page : PageSize)

def valid (this : Mapping) : Bool :=
  this.mAddr != 0

/- The pages that a valid object stands for. -/
def owned (this : Mapping) : List Nat :=
  if this.valid then page.pages this.mAddr this.mSize
  else []

/- Note what happened to pages, one after another. -/
def recordAll (entries : List (Entry Nat)) :
    Method (Ledger Mapping Nat) Unit :=
  Command.modify fun s =>
    { s with log := entries.reverse ++ s.log }

def invalidate : Method (Ledger Mapping Nat) Unit :=
  Ledger.assign fun _ => { mAddr := 0, mSize := 0 }

/- `mem::unmap` of the pages of the object. -/
def release (answer : Sys Unit) :
    Method (Ledger Mapping Nat) Unit := do
  let this ← Ledger.self
  let pages := page.pages this.mAddr this.mSize
  match Mem.unmap answer with
  | .ok () => recordAll (pages.map (.settled .closed))
  | .error e => do
      recordAll (pages.map (.settled .handedOut))
      Command.raise e

def unmap (answer : Sys Unit) :
    Method (Ledger Mapping Nat) Unit := do
  let this ← Ledger.self
  if this.valid then
    (do
      release page answer
      invalidate).handle fun e => do
        invalidate
        Command.raise e
  else
    pure ()

/-
  What `mremap()` does to pages: those that are not needed
  any more are unmapped, unless the caller wants to keep
  them, and the ones that are missing are mapped.
-/
def remapped
    (dontUnmap : Bool) (old new : List Nat) :
    List (Entry Nat) :=
  (if dontUnmap then []
    else (old.filter (· ∉ new)).map (.settled .closed)) ++
    (new.filter (· ∉ old)).map .acquired

def remap
    (newSize : Nat)
    (flags : BitMask 32)
    (newAddr : Option Nat)
    (answer : Sys Nat) :
    Method (Ledger Mapping Nat) Unit := do
  let this ← Ledger.self
  match Mem.remap flags newAddr answer with
  | .error e => Command.raise e
  | .ok addr => do
      recordAll
        (remapped (flags.testAny RemapFlag.dontUnmap)
          (this.owned page) (page.pages addr newSize))
      Ledger.assign fun _ =>
        { mAddr := addr, mSize := newSize }

/- The destructor, which is `noexcept`. -/
def destroy (answer : Sys Unit) :
    Method (Ledger Mapping Nat) Unit :=
  (unmap page answer).handle fun _ =>
    Command.halt .terminate

------------------------------------------------------------
-- Operations
------------------------------------------------------------

/- The objects by their places, and the pages so far. -/
structure World (ι : Type) where
  objs : ι → Option Mapping
  log : List (Entry Nat)
  ended : Bool

def World.owned {ι : Type} (w : World ι) : ι → List Nat :=
  Places.held (Mapping.owned page) w.objs

/-
  `fixed` tells whether `MapFlag::FIXED` is in the settings
  for `mmap()`.
-/
inductive Op (ι : Type) where
| construct (h : ι)
| map
    (h : ι) (size : Nat) (fixed : Bool) (answer : Sys Nat)
| moveConstruct (h k : ι)
| moveAssign (h k : ι)
| remap
    (h : ι) (newSize : Nat) (flags : BitMask 32)
    (newAddr : Option Nat) (answer : Sys Nat)
| unmap (h : ι) (answer : Sys Unit)
| destroy (h : ι) (answer : Sys Unit)

variable {ι : Type} [DecidableEq ι]

/- A member function of the object at `h`. -/
def World.call
    (w : World ι) (h : ι)
    (m : Method (Ledger Mapping Nat) Unit) : World ι :=
  match w.objs h with
  | none => w
  | some this =>
      let s := Ledger.after m this w.log
      { w with
        objs := Function.update w.objs h (some s.this)
        log := s.log }

/- The target takes the members, the source loses them. -/
def World.move (w : World ι) (h k : ι) : World ι :=
  { w with
    objs :=
      Function.update (Function.update w.objs h (w.objs k))
        k (some {}) }

def World.step (w : World ι) : Op ι → World ι
| .construct h =>
    { w with objs := Function.update w.objs h (some {}) }
| .map h size _ answer =>
    match Mem.map answer with
    | .error _ => w
    | .ok addr =>
        { w with
          objs := Function.update w.objs h (some ⟨addr, size⟩)
          log :=
            ((page.pages addr size).map .acquired).reverse ++
              w.log }
| .moveConstruct h k => w.move h k
| .moveAssign h k => w.move h k
| .remap h newSize flags newAddr answer =>
    w.call h (Mapping.remap page newSize flags newAddr answer)
| .unmap h answer => w.call h (Mapping.unmap page answer)
| .destroy h answer =>
    match w.objs h with
    | none => w
    | some this =>
        match (Mapping.destroy page answer).run
            ⟨this, w.log⟩ with
        | (.halted _, s) =>
            { objs := Function.update w.objs h (some s.this)
              log := s.log
              ended := true }
        | (_, s) =>
            { w with
              objs := Function.update w.objs h none
              log := s.log }

/- A process in which no object was made yet. -/
def start : World ι where
  objs _ := none
  log := []
  ended := false

/-
  Operations make sense on live objects. The kernel maps no
  page for an empty size, takes no pages of other objects
  unless told so, and remaps nothing but mapped pages; the
  caller of `remap` stays away from other objects, and pages
  that are to be kept are not mapped to.
-/
def Op.Legal (w : World ι) (op : Op ι) : Prop :=
  w.ended = false ∧
    match op with
    | .construct h => w.objs h = none
    | .map h size fixed answer =>
        w.objs h = none ∧
          ∀ addr, answer = .ok addr →
            0 < size ∧
              (fixed = false →
                ∀ p ∈ page.pages addr size,
                  ∀ k, p ∉ w.owned page k)
    | .moveConstruct h k =>
        w.objs h = none ∧ ∃ other, w.objs k = some other
    | .moveAssign h k =>
        (∃ this, w.objs h = some this) ∧
          ∃ other, w.objs k = some other
    | .remap h newSize flags newAddr answer =>
        ∃ this, w.objs h = some this ∧
          ∀ addr, Mem.remap flags newAddr answer = .ok addr →
            this.owned page ≠ [] ∧ 0 < newSize ∧
              (∀ p ∈ page.pages addr newSize,
                ∀ k, k ≠ h → p ∉ w.owned page k) ∧
              (flags.testAny RemapFlag.dontUnmap = true →
                ∀ p ∈ page.pages addr newSize,
                  p ∉ this.owned page)
    | .unmap h _ => ∃ this, w.objs h = some this
    | .destroy h _ => ∃ this, w.objs h = some this

/-
  What loses track of pages: a mapping at address 0, which
  counts as none, a mapping over the pages of other objects,
  a move onto an object that owns pages, and a remapping
  that keeps the old pages.
-/
def Op.Faulty (w : World ι) : Op ι → Prop
| .map _ size _ answer =>
    ∃ addr, answer = .ok addr ∧
      (addr = 0 ∨
        ∃ p ∈ page.pages addr size, ∃ k, p ∈ w.owned page k)
| .moveAssign h _ => w.owned page h ≠ []
| .remap _ _ flags newAddr answer =>
    ∃ addr, Mem.remap flags newAddr answer = .ok addr ∧
      (addr = 0 ∨
        flags.testAny RemapFlag.dontUnmap = true)
| _ => False

/- The call of `mmap()` or of `remap` fails. -/
def Op.Fails : Op ι → Prop
| .map _ _ _ answer => ∃ e, Mem.map answer = .error e
| .remap _ _ flags newAddr answer =>
    ∃ e, Mem.remap flags newAddr answer = .error e
| _ => False

/-
  After an operation the mapped pages are those of the valid
  objects, each of one object. No page was unmapped more
  often than it was mapped, and what fails changes nothing.
-/
structure Kept
    (w : World ι) (op : Op ι) (w' : World ι) : Prop where
  sound : Sound (w'.owned page) w'.log
  accounted :
    ∀ p,
      ((∃ h, p ∈ w'.owned page h) ∧
        w'.log.count (.acquired p) =
          w'.log.count (.settled .closed p) +
            w'.log.count (.settled .handedOut p) + 1) ∨
      ((∀ h, p ∉ w'.owned page h) ∧
        w'.log.count (.acquired p) =
          w'.log.count (.settled .closed p) +
            w'.log.count (.settled .handedOut p))
  refused : op.Fails → w'.objs = w.objs ∧ w'.log = w.log

------------------------------------------------------------
-- Member Functions Are Trades
------------------------------------------------------------

theorem nodup_pages (addr size : Nat) :
    (page.pages addr size).Nodup :=
  List.nodup_range'

theorem nodup_owned (this : Mapping) :
    (this.owned page).Nodup := by
  unfold owned
  split
  · exact nodup_pages page _ _
  · exact List.nodup_nil

theorem owned_of_valid
    {this : Mapping} (hValid : this.valid = true) :
    this.owned page = page.pages this.mAddr this.mSize := by
  unfold owned
  rw [if_pos hValid]

theorem owned_of_invalid
    {this : Mapping} (hInvalid : ¬ this.valid = true) :
    this.owned page = [] := by
  unfold owned
  rw [if_neg hInvalid]

theorem run_unmap_invalid
    {this : Mapping} (hInvalid : ¬ this.valid = true)
    (log : List (Entry Nat)) (answer : Sys Unit) :
    (unmap page answer).run ⟨this, log⟩ =
      (.returned (), ⟨this, log⟩) := by
  unfold unmap
  rw [Command.run_bind_returned (Ledger.run_self _),
    if_neg hInvalid]
  rfl

theorem run_unmap_ok
    {this : Mapping} (hValid : this.valid = true)
    (log : List (Entry Nat)) :
    (unmap page (.ok ())).run ⟨this, log⟩ =
      (.returned (),
        ⟨{},
          ((this.owned page).map
            (.settled .closed)).reverse ++ log⟩) := by
  unfold unmap
  rw [Command.run_bind_returned (Ledger.run_self _),
    if_pos hValid, owned_of_valid page hValid]
  rfl

theorem run_unmap_error
    {this : Mapping} (hValid : this.valid = true)
    (log : List (Entry Nat)) (e : Errno) :
    (unmap page (.error e)).run ⟨this, log⟩ =
      (.raised (.apiError e (str "munmap()")),
        ⟨{},
          ((this.owned page).map
            (.settled .handedOut)).reverse ++ log⟩) := by
  unfold unmap
  rw [Command.run_bind_returned (Ledger.run_self _),
    if_pos hValid, owned_of_valid page hValid]
  rfl

/-
  Whatever `munmap()` answers, the object owns nothing
  afterwards and has settled what it owned.
-/
theorem trade_unmap
    (free : Nat → Prop)
    (this : Mapping) (log : List (Entry Nat))
    (answer : Sys Unit) :
    ((unmap page answer).run ⟨this, log⟩).2.this.owned page =
        [] ∧
      Trade free (this.owned page) log []
        ((unmap page answer).run ⟨this, log⟩).2.log := by
  by_cases hValid : this.valid = true
  · cases answer with
    | ok _ =>
        rw [run_unmap_ok page hValid]
        refine ⟨rfl, ?_⟩
        have hAll :=
          Trade.settleAll free .closed [] (this.owned page) log
        rwa [List.append_nil] at hAll
    | error e =>
        rw [run_unmap_error page hValid]
        refine ⟨rfl, ?_⟩
        have hAll :=
          Trade.settleAll free .handedOut [] (this.owned page)
            log
        rwa [List.append_nil] at hAll
  · rw [run_unmap_invalid page hValid]
    rw [owned_of_invalid page hValid]
    exact ⟨rfl, .refl⟩

/- A refused remapping changes nothing. -/
theorem run_remap_error
    {newSize : Nat} {flags : BitMask 32}
    {newAddr : Option Nat} {answer : Sys Nat} {e : Exn}
    (hRemap : Mem.remap flags newAddr answer = .error e)
    (s : Ledger Mapping Nat) :
    (remap page newSize flags newAddr answer).run s =
      (.raised e, s) := by
  unfold remap
  rw [Command.run_bind_returned (Ledger.run_self _), hRemap]
  rfl

theorem run_remap_ok
    {newSize : Nat} {flags : BitMask 32}
    {newAddr : Option Nat} {answer : Sys Nat} {addr : Nat}
    (hRemap : Mem.remap flags newAddr answer = .ok addr)
    (this : Mapping) (log : List (Entry Nat)) :
    (remap page newSize flags newAddr answer).run
        ⟨this, log⟩ =
      (.returned (),
        ⟨⟨addr, newSize⟩,
          (remapped (flags.testAny RemapFlag.dontUnmap)
            (this.owned page)
            (page.pages addr newSize)).reverse ++ log⟩) := by
  unfold remap
  rw [Command.run_bind_returned (Ledger.run_self _), hRemap]
  rfl

theorem valid_of_ne_zero
    {addr size : Nat} (hAddr : addr ≠ 0) :
    (⟨addr, size⟩ : Mapping).valid = true := by
  simpa [valid] using hAddr

/- A remapping that gives up the old pages is an exchange. -/
theorem trade_remap
    {free : Nat → Prop}
    {newSize : Nat} {flags : BitMask 32}
    {newAddr : Option Nat} {answer : Sys Nat}
    (this : Mapping) (log : List (Entry Nat))
    (hFree :
      ∀ addr, Mem.remap flags newAddr answer = .ok addr →
        ∀ p ∈ page.pages addr newSize, free p)
    (hGood :
      ∀ addr, Mem.remap flags newAddr answer = .ok addr →
        addr ≠ 0 ∧
          flags.testAny RemapFlag.dontUnmap = false) :
    Trade free (this.owned page) log
      ((Ledger.after
        (remap page newSize flags newAddr answer)
        this log).this.owned page)
      (Ledger.after
        (remap page newSize flags newAddr answer)
        this log).log := by
  unfold Ledger.after
  cases hRemap : Mem.remap flags newAddr answer with
  | error e =>
      rw [run_remap_error page hRemap]
      exact .refl
  | ok addr =>
      rcases hGood addr hRemap with ⟨hAddr, hUnmap⟩
      rw [run_remap_ok page hRemap,
        owned_of_valid page (valid_of_ne_zero hAddr)]
      have hExchange :=
        Trade.exchange log (nodup_owned page this)
          (nodup_pages page addr newSize)
          (fun p hMem _ => hFree addr hRemap p hMem)
      simpa [remapped, hUnmap] using hExchange

------------------------------------------------------------
-- One Operation
------------------------------------------------------------

omit [DecidableEq ι] in
theorem owned_of_none
    {w : World ι} {h : ι} (hNone : w.objs h = none) :
    w.owned page h = [] := by
  simp [World.owned, Places.held, hNone]

omit [DecidableEq ι] in
theorem owned_of_some
    {w : World ι} {h : ι} {this : Mapping}
    (hObj : w.objs h = some this) :
    w.owned page h = this.owned page := by
  simp [World.owned, Places.held, hObj]

/- An object comes, changes or goes by a trade. -/
theorem sound_update
    {w : World ι} {h : ι} {obj : Option Mapping}
    {log' : List (Entry Nat)} {free : Nat → Prop}
    (hSound : Sound (w.owned page) w.log)
    (hTrade :
      Trade free (w.owned page h) w.log
        (Places.heldBy (Mapping.owned page) obj) log')
    (hFree :
      ∀ p, free p → ∀ k, k ≠ h → p ∉ w.owned page k) :
    Sound
      (Places.held (Mapping.owned page)
        (Function.update w.objs h obj)) log' :=
  Places.sound_of_trade hSound hTrade hFree

theorem sound_destroy
    {w : World ι} {h : ι} {this : Mapping}
    (answer : Sys Unit)
    (hSound : Sound (w.owned page) w.log)
    (hObj : w.objs h = some this) :
    Sound ((w.step page (.destroy h answer)).owned page)
      (w.step page (.destroy h answer)).log := by
  rcases trade_unmap page (fun _ => False) this w.log
      answer with ⟨hNothing, hTrade⟩
  rw [← owned_of_some page hObj] at hTrade
  have hBoth : ∀ obj : Option Mapping,
      Places.heldBy (Mapping.owned page) obj = [] →
      Sound
        (Places.held (Mapping.owned page)
          (Function.update w.objs h obj))
        ((unmap page answer).run ⟨this, w.log⟩).2.log := by
    intro obj hObj'
    refine sound_update page hSound ?_ fun _ hFalse =>
      (hFalse : False).elim
    rwa [hObj']
  simp only [World.step, hObj, destroy, Command.run_handle]
  rcases hRun : (unmap page answer).run ⟨this, w.log⟩ with
    ⟨⟨⟩ | ⟨⟩ | ⟨⟩, s⟩ <;>
    rw [hRun] at hBoth hNothing
  · exact hBoth none rfl
  · exact hBoth (some s.this) hNothing
  · exact hBoth (some s.this) hNothing

theorem sound_step
    {w : World ι} {op : Op ι}
    (hSound : Sound (w.owned page) w.log)
    (hLegal : op.Legal page w)
    (hGood : ¬ op.Faulty page w) :
    Sound ((w.step page op).owned page)
      (w.step page op).log := by
  rcases hLegal with ⟨-, hLegal⟩
  cases op with
  | construct h =>
      refine sound_update page hSound ?_ fun _ hFalse =>
        (hFalse : False).elim
      rw [owned_of_none page hLegal]
      exact .refl
  | map h size fixed answer =>
      rcases hLegal with ⟨hNone, hKernel⟩
      cases answer with
      | error e => exact hSound
      | ok addr =>
          have hAddr : addr ≠ 0 := fun hZero =>
            hGood ⟨addr, rfl, Or.inl hZero⟩
          have hFree : ∀ p ∈ page.pages addr size,
              ∀ k, k ≠ h → p ∉ w.owned page k :=
            fun p hMem k _ hHeld =>
              hGood ⟨addr, rfl, Or.inr ⟨p, hMem, k, hHeld⟩⟩
          refine
            sound_update page hSound ?_
              (fun p (hMem : p ∈ page.pages addr size) =>
                hFree p hMem)
          rw [owned_of_none page hNone, Places.heldBy_some,
            owned_of_valid page (valid_of_ne_zero hAddr)]
          exact
            Trade.acquireAll _ (page.pages addr size) [] w.log
              (fun _ hMem => hMem)
              (fun _ _ => List.not_mem_nil)
              (nodup_pages page addr size)
  | moveConstruct h k =>
      rcases hLegal with ⟨hNone, -⟩
      exact
        Places.sound_of_move hSound rfl rfl
          (owned_of_none page hNone)
  | moveAssign h k =>
      have hEmpty : w.owned page h = [] :=
        Classical.not_not.mp hGood
      exact Places.sound_of_move hSound rfl rfl hEmpty
  | remap h newSize flags newAddr answer =>
      rcases hLegal with ⟨this, hObj, hKernel⟩
      simp only [World.step, World.call, hObj]
      refine sound_update page hSound ?_
        (fun p (hMem : ∀ k, k ≠ h → p ∉ w.owned page k) =>
          hMem)
      rw [owned_of_some page hObj]
      refine trade_remap page this w.log ?_ ?_
      · intro addr hRemap p hMem
        exact (hKernel addr hRemap).2.2.1 p hMem
      · intro addr hRemap
        constructor
        · intro hZero
          exact hGood ⟨addr, hRemap, Or.inl hZero⟩
        · cases hKeep :
              flags.testAny RemapFlag.dontUnmap with
          | false => rfl
          | true =>
              exact
                absurd ⟨addr, hRemap, Or.inr hKeep⟩ hGood
  | unmap h answer =>
      rcases hLegal with ⟨this, hObj⟩
      rcases trade_unmap page (fun _ => False) this w.log
          answer with ⟨hNothing, hTrade⟩
      simp only [World.step, World.call, hObj]
      refine sound_update page hSound ?_ fun _ hFalse =>
        (hFalse : False).elim
      rw [owned_of_some page hObj, Places.heldBy_some,
        Ledger.after, hNothing]
      exact hTrade
  | destroy h answer =>
      rcases hLegal with ⟨this, hObj⟩
      exact sound_destroy page answer hSound hObj

/- Mappings driven by operations on them. -/
def machine : Machine (World ι) (Op ι) where
  legal w op := op.Legal page w
  step := World.step page

end Members

end Mapping

end Cosmos
