import LibCosmos.FS.FileDescriptor
import LibCosmos.Foundation.Contents
import LibCosmos.Foundation.Copies
import LibCosmos.Foundation.Machine
import Mathlib.Algebra.Order.Ring.Nat

/-
  Copying ranges between files inside of the kernel
  (`src/fs/filesystem.cxx`, `include/fs/filesystem.hxx`):
  both overloads of `copy_file_range`, the second one with a
  parameter object that a caller can use to go on after a
  partial copy.

  Any number of parameter objects is used in turns. A call
  copies as much as the kernel likes, or fails.

  Main declarations:
    * `CopyRange.CopyFileRangeParameters`
    * `CopyRange.Kernel`, `CopyRange.Kernel.transfer`
    * `CopyRange.copyFileRange`,
      `CopyRange.copyFileRangePars`
    * `CopyRange.World`, `CopyRange.machine`
    * `CopyRange.Independent`, `CopyRange.Progress`
    * `CopyRange.copies_progress`
    * `CopyRange.kernel_of_finished`
-/

namespace Cosmos

open Copies Contents

namespace CopyRange

------------------------------------------------------------
-- The Kernel
------------------------------------------------------------

/- The two ends of a copy. -/
inductive End where
| input
| output
deriving DecidableEq, Repr

/-
  Descriptors refer to open file descriptions, which have an
  offset and refer to a file.
-/
structure Kernel where
  table : FileNum → Option Nat
  inode : Nat → Nat
  offset : Nat → Nat
  data : Nat → List Byte

namespace Kernel

variable (k : Kernel)

/- The file of a descriptor. -/
def file (fd : FileDescriptor) : Option Nat :=
  (k.table fd.mFd).map k.inode

/-
  Where a system call works: at an explicit offset, or at
  the offset of the open file description.
-/
def position (fd : FileDescriptor) : Option Int → Int
| some off => off
| none =>
    (k.table fd.mFd).elim 0 fun d => (k.offset d : Int)

/- The open file description whose offset is in use. -/
def cursor (fd : FileDescriptor) : Option Int → Option Nat
| some _ => none
| none => k.table fd.mFd

/- What there is to read from a position on. -/
def available (fd : FileDescriptor) (off : Option Int) : Nat :=
  (k.file fd).elim 0 fun i =>
    (k.data i).length - (k.position fd off).toNat

/- The byte of a file at a position; none is a zero. -/
def byteAt (place : Option Nat × Int) : Byte :=
  place.1.elim 0 fun i =>
    if 0 ≤ place.2 then cell 0 (k.data i) place.2.toNat
    else 0

/- The offset of a description moves if it is in use. -/
def moveOn
    (offset : Nat → Nat) (off : Option Int) (d n : Nat) :
    Nat → Nat :=
  match off with
  | some _ => offset
  | none => Function.update offset d (offset d + n)

/- The files after a system call that copied `n` bytes. -/
def transfer
    (fdIn : FileDescriptor) (offIn : Option Int)
    (fdOut : FileDescriptor) (offOut : Option Int)
    (n : Nat) : Kernel :=
  match k.table fdIn.mFd, k.table fdOut.mFd with
  | some dIn, some dOut =>
      { k with
        data :=
          Function.update k.data (k.inode dOut)
            (store 0 (k.data (k.inode dOut))
              (k.position fdOut offOut).toNat
              (Buffer.read (k.data (k.inode dIn))
                (k.position fdIn offIn).toNat n))
        offset :=
          moveOn (moveOn k.offset offIn dIn n) offOut
            dOut n }
  | _, _ => k

end Kernel

------------------------------------------------------------
-- The Functions
------------------------------------------------------------

/- The kernel and what the offset pointers point to. -/
structure Pointers where
  kernel : Kernel
  offIn : Option Int
  offOut : Option Int

/-
  `copy_file_range` of the unnamed namespace. The kernel
  moves explicit offsets; a call that fails changes nothing.
-/
def copyFileRangeAt
    (fdIn fdOut : FileDescriptor) (answer : Sys UInt64) :
    Method Pointers UInt64 := do
  let res ← check "copy_file_range()" answer
  Command.modify fun s =>
    { kernel :=
        s.kernel.transfer fdIn s.offIn fdOut s.offOut
          res.toNat
      offIn := s.offIn.map (· + (res.toNat : Int))
      offOut := s.offOut.map (· + (res.toNat : Int)) }
  pure res

/-
  `copy_file_range(const FileDescriptor, const
  FileDescriptor, const size_t)`.
-/
def copyFileRange
    (fdIn fdOut : FileDescriptor) (answer : Sys UInt64) :
    Method Kernel UInt64 :=
  (copyFileRangeAt fdIn fdOut answer).focus
    (fun k => ⟨k, none, none⟩) (fun t _ => t.kernel)

/- The members `in` and `out` are descriptors. -/
structure CopyFileRangeParameters where
  fdIn : FileDescriptor
  fdOut : FileDescriptor
  len : UInt64
  offIn : Option Int
  offOut : Option Int
deriving DecidableEq, Repr

namespace CopyFileRangeParameters

def fd (pars : CopyFileRangeParameters) :
    End → FileDescriptor
| .input => pars.fdIn
| .output => pars.fdOut

def off (pars : CopyFileRangeParameters) :
    End → Option Int
| .input => pars.offIn
| .output => pars.offOut

end CopyFileRangeParameters

structure Request where
  kernel : Kernel
  pars : CopyFileRangeParameters

/- `copy_file_range(CopyFileRangeParameters &)`. -/
def copyFileRangePars (answer : Sys UInt64) :
    Method Request UInt64 := do
  let s ← Command.get
  let copied ←
    (copyFileRangeAt s.pars.fdIn s.pars.fdOut answer).focus
      (fun r => ⟨r.kernel, r.pars.offIn, r.pars.offOut⟩)
      (fun t r =>
        ⟨t.kernel,
          { r.pars with
            offIn := t.offIn, offOut := t.offOut }⟩)
  Command.modify fun r =>
    { r with
      pars := { r.pars with len := r.pars.len - copied } }
  pure copied

/- The parameters after a call that copied. -/
def CopyFileRangeParameters.copied
    (pars : CopyFileRangeParameters) (n : UInt64) :
    CopyFileRangeParameters :=
  { pars with
    len := pars.len - n
    offIn := pars.offIn.map (· + (n.toNat : Int))
    offOut := pars.offOut.map (· + (n.toNat : Int)) }

theorem run_copyFileRangePars_ok
    (n : UInt64) (r : Request) :
    (copyFileRangePars (.ok n)).run r =
      (.returned n,
        ⟨r.kernel.transfer r.pars.fdIn r.pars.offIn
            r.pars.fdOut r.pars.offOut n.toNat,
          r.pars.copied n⟩) :=
  rfl

theorem run_copyFileRangePars_error
    (e : Errno) (r : Request) :
    (copyFileRangePars (.error e)).run r =
      (.raised (.apiError e (str "copy_file_range()")), r) :=
  rfl

/-
  The overload without offsets does to the files what the
  other one does without explicit offsets.
-/
theorem run_copyFileRange
    (answer : Sys UInt64) (r : Request)
    (hIn : r.pars.offIn = none)
    (hOut : r.pars.offOut = none) :
    (copyFileRange r.pars.fdIn r.pars.fdOut answer).run
        r.kernel =
      (((copyFileRangePars answer).run r).1,
        ((copyFileRangePars answer).run r).2.kernel) := by
  cases answer with
  | error e => rfl
  | ok n =>
      rw [run_copyFileRangePars_ok, hIn, hOut]
      rfl

------------------------------------------------------------
-- The Effect of a Call
------------------------------------------------------------

namespace Kernel

variable {k : Kernel} {fdIn fdOut : FileDescriptor}
  {offIn offOut : Option Int} {n : Nat}

/- A call that copied `n` bytes, by its documentation. -/
structure Allows
    (k : Kernel)
    (fdIn : FileDescriptor) (offIn : Option Int)
    (fdOut : FileDescriptor) (offOut : Option Int)
    (len n : Nat) : Prop where
  opened : ∃ dIn dOut,
    k.table fdIn.mFd = some dIn ∧
      k.table fdOut.mFd = some dOut
  readable : 0 ≤ k.position fdIn offIn
  writable : 0 ≤ k.position fdOut offOut
  requested : n ≤ len
  present : n ≤ k.available fdIn offIn
  ended : n = 0 → len = 0 ∨ k.available fdIn offIn = 0

@[simp] theorem transfer_table :
    (k.transfer fdIn offIn fdOut offOut n).table =
      k.table := by
  unfold transfer
  split <;> rfl

@[simp] theorem transfer_inode :
    (k.transfer fdIn offIn fdOut offOut n).inode =
      k.inode := by
  unfold transfer
  split <;> rfl

@[simp] theorem transfer_file (fd : FileDescriptor) :
    (k.transfer fdIn offIn fdOut offOut n).file fd =
      k.file fd := by
  unfold file
  rw [transfer_table, transfer_inode]

@[simp] theorem transfer_cursor
    (fd : FileDescriptor) (off : Option Int) :
    (k.transfer fdIn offIn fdOut offOut n).cursor fd off =
      k.cursor fd off := by
  cases off with
  | some off => rfl
  | none =>
      unfold cursor
      rw [transfer_table]

theorem moveOn_apply
    (offset : Nat → Nat) (fd : FileDescriptor)
    (off : Option Int) {d : Nat}
    (hTable : k.table fd.mFd = some d) (n d' : Nat) :
    moveOn offset off d n d' =
      offset d' +
        if k.cursor fd off = some d' then n else 0 := by
  cases off with
  | some off =>
      rw [if_neg]
      · rfl
      · exact nofun
  | none =>
      change
        Function.update offset d (offset d + n) d' =
          offset d' +
            if k.table fd.mFd = some d' then n else 0
      rw [hTable]
      by_cases hSame : d' = d
      · subst hSame
        rw [Function.update_self, if_pos rfl]
      · rw [Function.update_of_ne hSame, if_neg]
        · rfl
        · intro hEq
          exact hSame (Option.some.inj hEq).symm

section Allowed

variable {len : Nat}
  (hAllows : k.Allows fdIn offIn fdOut offOut len n)

include hAllows

/- The offsets of descriptions after a call. -/
theorem offset_transfer (d : Nat) :
    (k.transfer fdIn offIn fdOut offOut n).offset d =
      k.offset d +
        (if k.cursor fdIn offIn = some d then n else 0) +
        (if k.cursor fdOut offOut = some d then n
          else 0) := by
  rcases hAllows.opened with ⟨dIn, dOut, hIn, hOut⟩
  unfold transfer
  simp only [hIn, hOut]
  rw [moveOn_apply _ fdOut offOut hOut,
    moveOn_apply _ fdIn offIn hIn]

/- As many bytes are read as the call reports. -/
theorem length_read_of_allows
    {dIn : Nat} (hIn : k.table fdIn.mFd = some dIn) :
    (Buffer.read (k.data (k.inode dIn))
      (k.position fdIn offIn).toNat n).length = n := by
  have hPresent := hAllows.present
  unfold available file at hPresent
  rw [hIn] at hPresent
  unfold Buffer.read
  rw [List.length_take, List.length_drop]
  exact Nat.min_eq_left hPresent

/- The bytes arrive where they were asked for. -/
theorem byteAt_transfer {i : Nat} (hLt : i < n) :
    (k.transfer fdIn offIn fdOut offOut n).byteAt
        (k.file fdOut, k.position fdOut offOut + i) =
      k.byteAt
        (k.file fdIn, k.position fdIn offIn + i) := by
  rcases hAllows.opened with ⟨dIn, dOut, hIn, hOut⟩
  have hFrom := hAllows.readable
  have hTo := hAllows.writable
  have hLength := length_read_of_allows hAllows hIn
  unfold transfer byteAt file
  simp only [hIn, hOut, Option.map_some, Option.elim_some]
  rw [if_pos (by omega), if_pos (by omega),
    Function.update_self, cell_store, hLength,
    if_pos (by omega), cell_read _ _ _ (by omega)]
  congr 1
  omega

/- All other bytes stay as they are. -/
theorem byteAt_transfer_of_ne
    {place : Option Nat × Int}
    (hNone :
      ∀ i, i < n →
        (k.file fdOut,
          k.position fdOut offOut + (i : Int)) ≠ place) :
    (k.transfer fdIn offIn fdOut offOut n).byteAt place =
      k.byteAt place := by
  rcases hAllows.opened with ⟨dIn, dOut, hIn, hOut⟩
  have hTo := hAllows.writable
  have hLength := length_read_of_allows hAllows hIn
  rcases place with ⟨file?, x⟩
  cases file? with
  | none => rfl
  | some i =>
      unfold file at hNone
      unfold transfer byteAt
      simp only [hIn, hOut, Option.elim_some]
      by_cases hNonneg : 0 ≤ x
      · rw [if_pos hNonneg, if_pos hNonneg]
        by_cases hSame : i = k.inode dOut
        · subst hSame
          rw [Function.update_self, cell_store, hLength,
            if_neg]
          rintro ⟨hLe, hLt⟩
          apply
            hNone (x.toNat - (k.position fdOut offOut).toNat)
              (by omega)
          rw [hOut]
          apply Prod.ext
          · rfl
          · simp only
            omega
        · rw [Function.update_of_ne hSame]
      · rw [if_neg hNonneg, if_neg hNonneg]

/- A file grows up to the end of what is copied into it. -/
theorem lt_length_transfer (i x : Nat) :
    x <
        ((k.transfer fdIn offIn fdOut offOut n).data
          i).length ↔
      x < (k.data i).length ∨
        0 < n ∧ k.file fdOut = some i ∧
          (x : Int) < k.position fdOut offOut + n := by
  rcases hAllows.opened with ⟨dIn, dOut, hIn, hOut⟩
  have hTo := hAllows.writable
  have hLength := length_read_of_allows hAllows hIn
  unfold transfer file
  simp only [hIn, hOut, Option.map_some, Option.some.injEq]
  by_cases hSame : i = k.inode dOut
  · subst hSame
    rw [Function.update_self, length_store, hLength]
    by_cases hSome : 0 < n
    · rw [if_pos hSome, lt_max_iff]
      constructor
      · rintro (hOld | hNew)
        · exact Or.inl hOld
        · exact Or.inr ⟨hSome, rfl, by omega⟩
      · rintro (hOld | ⟨_, _, hNew⟩)
        · exact Or.inl hOld
        · exact Or.inr (by omega)
    · rw [if_neg hSome]
      simp [hSome]
  · rw [Function.update_of_ne hSame]
    simp [Ne.symm hSame]

end Allowed

end Kernel

------------------------------------------------------------
-- Users That Take Turns
------------------------------------------------------------

/-
  Every user has a parameter object. Noted are the results
  of the calls of a user, the last one first.
-/
structure World (J : Type) where
  kernel : Kernel
  pars : J → CopyFileRangeParameters
  returned : J → List UInt64

variable {J : Type}

namespace World

variable (w : World J)

/- File and position of an end of what a user copies. -/
def place (e : End) (j : J) : Option Nat × Int :=
  (w.kernel.file ((w.pars j).fd e),
    w.kernel.position ((w.pars j).fd e) ((w.pars j).off e))

def cursor (e : End) (j : J) : Option Nat :=
  w.kernel.cursor ((w.pars j).fd e) ((w.pars j).off e)

/- What the calls of a user copied by their results. -/
def copied (j : J) : Nat :=
  ((w.returned j).map UInt64.toNat).sum

end World

/- One call with the parameter object of a user. -/
def callBy [DecidableEq J]
    (w : World J) (j : J) (answer : Sys UInt64) :
    World J :=
  let result :=
    (copyFileRangePars answer).run ⟨w.kernel, w.pars j⟩
  { kernel := result.2.kernel
    pars := Function.update w.pars j result.2.pars
    returned :=
      match result.1 with
      | .returned n =>
          Function.update w.returned j (n :: w.returned j)
      | _ => w.returned }

def machine [DecidableEq J] :
    Machine (World J) (J × Sys UInt64) where
  legal w op :=
    match op.2 with
    | .ok n =>
        w.kernel.Allows
          (w.pars op.1).fdIn (w.pars op.1).offIn
          (w.pars op.1).fdOut (w.pars op.1).offOut
          (w.pars op.1).len.toNat n.toNat
    | .error _ => True
  step w op := callBy w op.1 op.2

theorem callBy_ok [DecidableEq J]
    (w : World J) (j : J) (n : UInt64) :
    callBy w j (.ok n) =
      { kernel :=
          w.kernel.transfer
            (w.pars j).fdIn (w.pars j).offIn
            (w.pars j).fdOut (w.pars j).offOut n.toNat
        pars := Function.update w.pars j ((w.pars j).copied n)
        returned :=
          Function.update w.returned j
            (n :: w.returned j) } :=
  rfl

theorem callBy_error [DecidableEq J]
    (w : World J) (j : J) (e : Errno) :
    callBy w j (.error e) = w := by
  change
    (⟨w.kernel, Function.update w.pars j (w.pars j),
      w.returned⟩ : World J) = w
  rw [Function.update_eq_self]

theorem copied_callBy_ok [DecidableEq J]
    (w : World J) (j : J) (n : UInt64) :
    (callBy w j (.ok n)).copied =
      Function.update w.copied j (w.copied j + n.toNat) := by
  funext j'
  rw [callBy_ok]
  unfold World.copied
  by_cases hSame : j' = j
  · subst hSame
    simp only [Function.update_self, List.map_cons,
      List.sum_cons]
    exact Nat.add_comm _ _
  · simp only [Function.update_of_ne hSame]

------------------------------------------------------------
-- What Is Copied
------------------------------------------------------------

def shift (place : Option Nat × Int) (n : Nat) :
    Option Nat × Int :=
  (place.1, place.2 + (n : Int))

/- The bytes that the users have to copy. -/
def plan (w : World J) : Plan J (Option Nat × Int) where
  size j := (w.pars j).len.toNat
  source j := shift (w.place .input j)
  target j := shift (w.place .output j)

/-
  What one user writes nobody else writes and nobody reads,
  not even this user itself, and every offset of a description
  is used at one end only.
-/
structure Independent (w : World J) : Prop where
  cells : (plan w).Independent
  cursors :
    ∀ {e e' : End} {j j' : J} {d : Nat},
      w.cursor e j = some d → w.cursor e' j' = some d →
        e = e' ∧ j = j'

/- The input file holds all that a user wants to copy. -/
def Within (w : World J) (j : J) : Prop :=
  ∃ i, (w.place .input j).1 = some i ∧
    (w.place .input j).2 + ((w.pars j).len.toNat : Int) ≤
      (w.kernel.data i).length

/- What calls of the users in any order came to. -/
structure Progress (w w' : World J) : Prop where
  table : w'.kernel.table = w.kernel.table
  inode : w'.kernel.inode = w.kernel.inode
  fd : ∀ e j, (w'.pars j).fd e = (w.pars j).fd e
  off :
    ∀ e j,
      (w'.pars j).off e =
        ((w.pars j).off e).map (· + (w'.copied j : Int))
  offset :
    ∀ e j d, w.cursor e j = some d →
      w'.kernel.offset d = w.kernel.offset d + w'.copied j
  others :
    ∀ d, (∀ e j, w.cursor e j ≠ some d) →
      w'.kernel.offset d = w.kernel.offset d
  len :
    ∀ j,
      (w'.pars j).len.toNat + w'.copied j =
        (w.pars j).len.toNat
  bytes :
    Copied (plan w) w'.copied
      w.kernel.byteAt w'.kernel.byteAt
  size :
    ∀ i x,
      x < (w'.kernel.data i).length ↔
        x < (w.kernel.data i).length ∨
          ∃ j, 0 < w'.copied j ∧
            (w.place .output j).1 = some i ∧
            (x : Int) <
              (w.place .output j).2 + w'.copied j
  paid :
    ∀ j, Within w j →
      min (w'.returned j).length (w.pars j).len.toNat ≤
        w'.copied j

theorem progress_start
    {w : World J} (hStart : ∀ j, w.returned j = []) :
    Progress w w := by
  have hNone : w.copied = fun _ => 0 := by
    funext j
    unfold World.copied
    rw [hStart j]
    rfl
  refine
    ⟨rfl, rfl, fun _ _ => rfl, ?_, ?_, fun _ _ => rfl, ?_,
      ?_, ?_, ?_⟩
  · intro e j
    rw [hNone]
    cases (w.pars j).off e with
    | none => rfl
    | some off => simp
  · intro e j d hCursor
    rw [hNone]
    rfl
  · intro j
    rw [hNone]
    rfl
  · rw [hNone]
    exact .start
  · intro i x
    rw [hNone]
    simp
  · intro j hWithin
    rw [hStart j]
    exact Nat.zero_le _

namespace Progress

variable {w w' : World J} (hProgress : Progress w w')

include hProgress

theorem file (fd : FileDescriptor) :
    w'.kernel.file fd = w.kernel.file fd := by
  unfold Kernel.file
  rw [hProgress.table, hProgress.inode]

theorem cursor (e : End) (j : J) :
    w'.cursor e j = w.cursor e j := by
  unfold World.cursor Kernel.cursor
  rw [hProgress.fd, hProgress.off, hProgress.table]
  cases (w.pars j).off e <;> rfl

/- The ends move on by what was copied. -/
theorem place
    {e : End} {j : J} {d : Nat}
    (hOpen : w.kernel.table ((w.pars j).fd e).mFd = some d) :
    w'.place e j = shift (w.place e j) (w'.copied j) := by
  unfold World.place shift
  rw [hProgress.file, hProgress.fd, hProgress.off]
  apply Prod.ext
  · rfl
  · cases hOff : (w.pars j).off e with
    | some off => rfl
    | none =>
        have hCursor : w.cursor e j = some d := by
          unfold World.cursor Kernel.cursor
          rw [hOff]
          exact hOpen
        simp only [Option.map_none, Kernel.position]
        rw [hProgress.table, hOpen]
        simp only [Option.elim_some]
        rw [hProgress.offset e j d hCursor]
        exact Int.natCast_add _ _

end Progress

------------------------------------------------------------
-- One More Call
------------------------------------------------------------

theorem shift_shift
    (place : Option Nat × Int) (m n : Nat) :
    shift (shift place m) n = shift place (m + n) := by
  unfold shift
  rw [Int.natCast_add, Int.add_assoc]

@[simp] theorem fd_copied
    (pars : CopyFileRangeParameters) (n : UInt64)
    (e : End) :
    (pars.copied n).fd e = pars.fd e := by
  cases e <;> rfl

@[simp] theorem off_copied
    (pars : CopyFileRangeParameters) (n : UInt64)
    (e : End) :
    (pars.copied n).off e =
      (pars.off e).map (· + (n.toNat : Int)) := by
  cases e <;> rfl

namespace Progress

variable {w w' : World J} {j : J} {n : UInt64}
  (hProgress : Progress w w')
  (hIndep : Independent w)
  (hAllows :
    w'.kernel.Allows
      (w'.pars j).fdIn (w'.pars j).offIn
      (w'.pars j).fdOut (w'.pars j).offOut
      (w'.pars j).len.toNat n.toNat)

include hProgress hAllows

/- An end of an allowed call is open from the start on. -/
theorem opened (e : End) :
    ∃ d, w.kernel.table ((w.pars j).fd e).mFd = some d := by
  rcases hAllows.opened with ⟨dIn, dOut, hIn, hOut⟩
  rw [← hProgress.table, ← hProgress.fd]
  cases e with
  | input => exact ⟨dIn, hIn⟩
  | output => exact ⟨dOut, hOut⟩

theorem place_of_allows (e : End) :
    w'.place e j = shift (w.place e j) (w'.copied j) := by
  rcases hProgress.opened hAllows e with ⟨d, hOpen⟩
  exact hProgress.place hOpen

theorem copied_add_le :
    w'.copied j + n.toNat ≤ (w.pars j).len.toNat := by
  have hLen := hProgress.len j
  have hRequested := hAllows.requested
  omega

variable [DecidableEq J]

theorem len_callBy (j' : J) :
    ((callBy w' j (.ok n)).pars j').len.toNat +
        (callBy w' j (.ok n)).copied j' =
      (w.pars j').len.toNat := by
  rw [copied_callBy_ok, callBy_ok]
  have hLen := hProgress.len j'
  by_cases hSame : j' = j
  · subst hSame
    simp only [Function.update_self,
      CopyFileRangeParameters.copied]
    have hRequested := hAllows.requested
    rw [UInt64.toNat_sub_of_le _ _
      (UInt64.le_iff_toNat_le.mpr hRequested)]
    omega
  · simp only [Function.update_of_ne hSame]
    exact hLen

include hIndep in
theorem offset_callBy
    (e : End) (j' : J) (d : Nat)
    (hCursor : w.cursor e j' = some d) :
    (callBy w' j (.ok n)).kernel.offset d =
      w.kernel.offset d +
        (callBy w' j (.ok n)).copied j' := by
  have hOffset := Kernel.offset_transfer hAllows d
  have hIn := hProgress.cursor .input j
  have hOut := hProgress.cursor .output j
  unfold World.cursor at hIn hOut
  simp only [CopyFileRangeParameters.fd,
    CopyFileRangeParameters.off] at hIn hOut
  rw [hIn, hOut, hProgress.offset e j' d hCursor] at hOffset
  rw [copied_callBy_ok, callBy_ok]
  refine hOffset.trans ?_
  by_cases hSame : j' = j
  · subst hSame
    rw [Function.update_self]
    cases e with
    | input =>
        have hOther : w.cursor .output j' ≠ some d := by
          intro hEq
          exact nomatch (hIndep.cursors hCursor hEq).1
        unfold World.cursor at hCursor hOther
        simp only [CopyFileRangeParameters.fd,
          CopyFileRangeParameters.off] at hCursor hOther
        rw [if_pos hCursor, if_neg hOther]
        omega
    | output =>
        have hOther : w.cursor .input j' ≠ some d := by
          intro hEq
          exact nomatch (hIndep.cursors hCursor hEq).1
        unfold World.cursor at hCursor hOther
        simp only [CopyFileRangeParameters.fd,
          CopyFileRangeParameters.off] at hCursor hOther
        rw [if_neg hOther, if_pos hCursor]
        omega
  · have hNone : ∀ e', w.cursor e' j ≠ some d := by
      intro e' hEq
      exact hSame (hIndep.cursors hCursor hEq).2
    have hNoIn := hNone .input
    have hNoOut := hNone .output
    unfold World.cursor at hNoIn hNoOut
    simp only [CopyFileRangeParameters.fd,
      CopyFileRangeParameters.off] at hNoIn hNoOut
    rw [Function.update_of_ne hSame, if_neg hNoIn,
      if_neg hNoOut]
    rfl

theorem others_callBy
    (d : Nat) (hNone : ∀ e j, w.cursor e j ≠ some d) :
    (callBy w' j (.ok n)).kernel.offset d =
      w.kernel.offset d := by
  have hOffset := Kernel.offset_transfer hAllows d
  have hIn := hProgress.cursor .input j
  have hOut := hProgress.cursor .output j
  have hNoIn := hNone .input j
  have hNoOut := hNone .output j
  unfold World.cursor at hIn hOut hNoIn hNoOut
  simp only [CopyFileRangeParameters.fd,
    CopyFileRangeParameters.off] at hIn hOut hNoIn hNoOut
  rw [hIn, hOut, if_neg hNoIn, if_neg hNoOut,
    hProgress.others d hNone] at hOffset
  exact hOffset

include hIndep in
theorem bytes_callBy :
    Copied (plan w) (callBy w' j (.ok n)).copied
      w.kernel.byteAt
      (callBy w' j (.ok n)).kernel.byteAt := by
  have hFrom := hProgress.place_of_allows hAllows .input
  have hTo := hProgress.place_of_allows hAllows .output
  have hSource : ∀ i,
      (plan w).source j (w'.copied j + i) =
        shift (w'.place .input j) i := by
    intro i
    rw [hFrom, shift_shift]
    rfl
  have hTarget : ∀ i,
      (plan w).target j (w'.copied j + i) =
        shift (w'.place .output j) i := by
    intro i
    rw [hTo, shift_shift]
    rfl
  rw [copied_callBy_ok]
  apply
    hProgress.bytes.advance hIndep.cells
      (hProgress.copied_add_le hAllows)
  · intro i hLt
    rw [hSource, hTarget]
    exact Kernel.byteAt_transfer hAllows hLt
  · intro place hNone
    apply Kernel.byteAt_transfer_of_ne hAllows
    intro i hLt
    have hNe := hNone i hLt
    rw [hTarget] at hNe
    exact hNe

theorem size_callBy (i x : Nat) :
    x <
        ((callBy w' j (.ok n)).kernel.data i).length ↔
      x < (w.kernel.data i).length ∨
        ∃ j', 0 < (callBy w' j (.ok n)).copied j' ∧
          (w.place .output j').1 = some i ∧
          (x : Int) <
            (w.place .output j').2 +
              (callBy w' j (.ok n)).copied j' := by
  have hTo := hProgress.place_of_allows hAllows .output
  have hFile := congrArg Prod.fst hTo
  have hPosition := congrArg Prod.snd hTo
  unfold shift at hFile hPosition
  simp only at hFile hPosition
  rw [copied_callBy_ok, callBy_ok]
  refine
    (Kernel.lt_length_transfer hAllows i x).trans ?_
  rw [hProgress.size i x]
  constructor
  · rintro ((hOld | ⟨j', hSome, hInto, hLt⟩) |
      ⟨hSome, hInto, hLt⟩)
    · exact Or.inl hOld
    · refine Or.inr ⟨j', ?_, hInto, ?_⟩
      · by_cases hSame : j' = j
        · subst hSame
          rw [Function.update_self]
          omega
        · rw [Function.update_of_ne hSame]
          exact hSome
      · by_cases hSame : j' = j
        · subst hSame
          rw [Function.update_self]
          omega
        · rw [Function.update_of_ne hSame]
          exact hLt
    · refine Or.inr ⟨j, ?_, ?_, ?_⟩
      · rw [Function.update_self]
        omega
      · rw [← hFile]
        exact hInto
      · rw [Function.update_self]
        change (x : Int) < (w'.place .output j).2 + _ at hLt
        omega
  · rintro (hOld | ⟨j', hSome, hInto, hLt⟩)
    · exact Or.inl (Or.inl hOld)
    · by_cases hSame : j' = j
      · subst hSame
        rw [Function.update_self] at hSome hLt
        by_cases hZero : n.toNat = 0
        · refine
            Or.inl (Or.inr ⟨j', ?_, hInto, ?_⟩) <;> omega
        · refine Or.inr ⟨by omega, ?_, ?_⟩
          · rw [← hFile] at hInto
            exact hInto
          · change (x : Int) < (w'.place .output j').2 + _
            omega
      · rw [Function.update_of_ne hSame] at hSome hLt
        exact Or.inl (Or.inr ⟨j', hSome, hInto, hLt⟩)

/-
  A call that copies nothing has nothing left to copy, so
  the calls of a user are at most as many as the bytes.
-/
theorem paid_callBy (j' : J) (hWithin : Within w j') :
    min ((callBy w' j (.ok n)).returned j').length
        (w.pars j').len.toNat ≤
      (callBy w' j (.ok n)).copied j' := by
  have hPaid := hProgress.paid j' hWithin
  rw [copied_callBy_ok, callBy_ok]
  by_cases hSame : j' = j
  · subst hSame
    simp only [Function.update_self, List.length_cons]
    by_cases hZero : n.toNat = 0
    · have hLen := hProgress.len j'
      rcases hWithin with ⟨i, hFile, hEnd⟩
      have hFrom := hProgress.place_of_allows hAllows .input
      have hSize := hProgress.size i
      rcases hAllows.ended hZero with hDone | hNothing
      · omega
      · have hNonneg := hAllows.readable
        unfold Kernel.available at hNothing
        have hFileNow := congrArg Prod.fst hFrom
        have hPosition := congrArg Prod.snd hFrom
        unfold shift at hFileNow hPosition
        simp only at hFileNow hPosition
        rw [hFile] at hFileNow
        change
          (w'.kernel.file (w'.pars j').fdIn).elim 0
            (fun i => (w'.kernel.data i).length -
              (w'.place .input j').2.toNat) = 0 at hNothing
        change 0 ≤ (w'.place .input j').2 at hNonneg
        change
          w'.kernel.file (w'.pars j').fdIn = some i
          at hFileNow
        rw [hFileNow, Option.elim_some] at hNothing
        have hGrown :
            (w.kernel.data i).length ≤
              (w'.kernel.data i).length := by
          apply Nat.le_of_not_lt
          intro hLt
          exact
            Nat.lt_irrefl _ ((hSize _).mpr (Or.inl hLt))
        omega
    · omega
  · simp only [Function.update_of_ne hSame]
    exact hPaid

include hIndep in
theorem step : Progress w (callBy w' j (.ok n)) where
  table := by
    rw [callBy_ok, ← hProgress.table]
    exact Kernel.transfer_table
  inode := by
    rw [callBy_ok, ← hProgress.inode]
    exact Kernel.transfer_inode
  fd e j' := by
    rw [callBy_ok, ← hProgress.fd]
    by_cases hSame : j' = j
    · subst hSame
      simp only [Function.update_self, fd_copied]
    · simp only [Function.update_of_ne hSame]
  off e j' := by
    rw [copied_callBy_ok, callBy_ok]
    by_cases hSame : j' = j
    · subst hSame
      simp only [Function.update_self, off_copied]
      rw [hProgress.off, Option.map_map]
      congr 1
      funext off
      simp only [Function.comp, Int.natCast_add,
        Int.add_assoc]
    · simp only [Function.update_of_ne hSame]
      exact hProgress.off e j'
  offset := hProgress.offset_callBy hIndep hAllows
  others := hProgress.others_callBy hAllows
  len := hProgress.len_callBy hAllows
  bytes := hProgress.bytes_callBy hIndep hAllows
  size := hProgress.size_callBy hAllows
  paid := hProgress.paid_callBy hAllows

end Progress

------------------------------------------------------------
-- Runs
------------------------------------------------------------

section Runs

variable [DecidableEq J] {w : World J}
  (hStart : ∀ j, w.returned j = [])
  (hIndep : Independent w)

include hStart hIndep

/-
  Whatever the order of the calls, however little the kernel
  copies in one of them and whichever of them fail: what was
  returned is missing from `len`, it was copied byte by byte
  from where the user started, and nothing else changed.
-/
theorem copies_progress
    {ops : List (J × Sys UInt64)}
    (hLegal : machine.Legal w ops) :
    Progress w (machine.run w ops) := by
  apply
    Machine.run_of_invariant (Progress w) (fun _ => True)
      ?_ ops w (progress_start hStart) hLegal
      (fun _ _ => trivial)
  rintro w' ⟨j, answer⟩ hProgress hStep -
  cases answer with
  | ok n => exact hProgress.step hIndep hStep
  | error e =>
      change Progress w (callBy w' j (.error e))
      rw [callBy_error]
      exact hProgress

end Runs

/-
  Two users of the same descriptors: one copies a whole file
  to the start of another one, the other one the end of the
  file to an explicit offset there.
-/
def twoUsers : World Bool where
  kernel :=
    { table := fun fd =>
        if fd = ⟨3⟩ then some 0
        else if fd = ⟨4⟩ then some 1 else none
      inode := id
      offset := fun _ => 0
      data := fun i => if i = 0 then [1, 2, 3] else [] }
  pars whole :=
    if whole then ⟨⟨⟨3⟩⟩, ⟨⟨4⟩⟩, 3, none, none⟩
    else ⟨⟨⟨3⟩⟩, ⟨⟨4⟩⟩, 2, some 1, some 4⟩
  returned _ := []

theorem independent_twoUsers : Independent twoUsers where
  cells :=
    { apart := by
        intro j k j' k' hLt hLt' hEq
        have hPosition := congrArg Prod.snd hEq
        cases j with
        | true =>
            change k < 3 at hLt
            cases j' with
            | true =>
                change (0 : Int) + k = 0 + k' at hPosition
                exact ⟨rfl, by omega⟩
            | false =>
                change (0 : Int) + k = 4 + k' at hPosition
                omega
        | false =>
            change k < 2 at hLt
            cases j' with
            | true =>
                change k' < 3 at hLt'
                change (4 : Int) + k = 0 + k' at hPosition
                omega
            | false =>
                change (4 : Int) + k = 4 + k' at hPosition
                exact ⟨rfl, by omega⟩
      unread := by
        intro j k j' k' _ _ hEq
        have hFile := congrArg Prod.fst hEq
        cases j <;> cases j' <;> exact nomatch hFile }
  cursors := by
    intro e e' j j' d hCursor hCursor'
    cases j with
    | false => cases e <;> exact nomatch hCursor
    | true =>
        cases j' with
        | false => cases e' <;> exact nomatch hCursor'
        | true =>
            cases e with
            | input =>
                cases hCursor
                cases e' with
                | input => exact ⟨rfl, rfl⟩
                | output => exact nomatch hCursor'
            | output =>
                cases hCursor
                cases e' with
                | input => exact nomatch hCursor'
                | output => exact ⟨rfl, rfl⟩

/- In parts, in turns, and with a call that fails. -/
def inParts : List (Bool × Sys UInt64) :=
  [(true, .ok 1), (false, .error Errno.interrupted),
    (false, .ok 2), (true, .ok 2)]

theorem legal_inParts : machine.Legal twoUsers inParts := by
  refine ⟨?_, trivial, ?_, ?_, trivial⟩
  · exact
      ⟨⟨0, 1, rfl, rfl⟩, by decide, by decide, by decide,
        by decide, by decide⟩
  · exact
      ⟨⟨0, 1, rfl, rfl⟩, by decide, by decide, by decide,
        by decide, by decide⟩
  · exact
      ⟨⟨0, 1, rfl, rfl⟩, by decide, by decide, by decide,
        by decide, by decide⟩

theorem copies_progress_inParts :
    Progress twoUsers (machine.run twoUsers inParts) :=
  copies_progress (fun _ => rfl) independent_twoUsers
    legal_inParts

example :
    (machine.run twoUsers inParts).kernel.data 1 =
      [1, 2, 3, 0, 2, 3] := by
  decide

namespace Progress

variable {w w₁ w₂ : World J}
  (hFirst : Progress w w₁) (hSecond : Progress w w₂)
  (hLen : ∀ j, (w₁.pars j).len = (w₂.pars j).len)

include hFirst hSecond hLen

theorem copied_eq : w₁.copied = w₂.copied := by
  funext j
  have hOne := hFirst.len j
  have hTwo := hSecond.len j
  rw [hLen j] at hOne
  omega

theorem data_eq : w₁.kernel.data = w₂.kernel.data := by
  have hCopied := copied_eq hFirst hSecond hLen
  have hBytes := hSecond.bytes
  rw [← hCopied] at hBytes
  have hSame := hFirst.bytes.unique hBytes
  funext i
  apply Contents.ext 0
  · have hSize :
        ∀ x, x < (w₁.kernel.data i).length ↔
          x < (w₂.kernel.data i).length := by
      intro x
      rw [hFirst.size, hSecond.size, hCopied]
    apply Nat.le_antisymm
    · exact
        Nat.le_of_not_lt fun hLt =>
          Nat.lt_irrefl _ ((hSize _).mp hLt)
    · exact
        Nat.le_of_not_lt fun hLt =>
          Nat.lt_irrefl _ ((hSize _).mpr hLt)
  · intro x
    have hCell := congrFun hSame (some i, (x : Int))
    simpa [Kernel.byteAt] using hCell

theorem offset_eq :
    w₁.kernel.offset = w₂.kernel.offset := by
  have hCopied := copied_eq hFirst hSecond hLen
  funext d
  by_cases hUsed : ∃ e j, w.cursor e j = some d
  · rcases hUsed with ⟨e, j, hCursor⟩
    rw [hFirst.offset e j d hCursor,
      hSecond.offset e j d hCursor, hCopied]
  · have hNone : ∀ e j, w.cursor e j ≠ some d :=
      fun e j hCursor => hUsed ⟨e, j, hCursor⟩
    rw [hFirst.others d hNone, hSecond.others d hNone]

theorem kernel_eq : w₁.kernel = w₂.kernel := by
  have hTable := hFirst.table.trans hSecond.table.symm
  have hInode := hFirst.inode.trans hSecond.inode.symm
  have hOffset := offset_eq hFirst hSecond hLen
  have hData := data_eq hFirst hSecond hLen
  cases hOne : w₁.kernel
  cases hTwo : w₂.kernel
  simp_all

theorem pars_eq : w₁.pars = w₂.pars := by
  have hCopied := copied_eq hFirst hSecond hLen
  funext j
  have hFd : ∀ e, (w₁.pars j).fd e = (w₂.pars j).fd e := by
    intro e
    rw [hFirst.fd, hSecond.fd]
  have hOff : ∀ e, (w₁.pars j).off e = (w₂.pars j).off e := by
    intro e
    rw [hFirst.off, hSecond.off, hCopied]
  have hSameLen := hLen j
  have hIn := hFd .input
  have hOut := hFd .output
  have hOffIn := hOff .input
  have hOffOut := hOff .output
  cases hOne : w₁.pars j
  cases hTwo : w₂.pars j
  simp_all [CopyFileRangeParameters.fd,
    CopyFileRangeParameters.off]

end Progress

section Runs

variable [DecidableEq J] {w : World J}

/-
  Two runs in which every user is left with the same `len`
  leave the same files, offsets and parameter objects,
  whatever the order and the sizes of the calls were.
-/
theorem runs_agree
    (hStart : ∀ j, w.returned j = [])
    (hIndep : Independent w)
    {ops ops' : List (J × Sys UInt64)}
    (hLegal : machine.Legal w ops)
    (hLegal' : machine.Legal w ops')
    (hLen :
      ∀ j,
        ((machine.run w ops).pars j).len =
          ((machine.run w ops').pars j).len) :
    (machine.run w ops).kernel =
        (machine.run w ops').kernel ∧
      (machine.run w ops).pars =
        (machine.run w ops').pars := by
  have hFirst := copies_progress hStart hIndep hLegal
  have hSecond := copies_progress hStart hIndep hLegal'
  exact
    ⟨hFirst.kernel_eq hSecond hLen,
      hFirst.pars_eq hSecond hLen⟩

/- Each user on its own, and at once. -/
def atOnce : List (Bool × Sys UInt64) :=
  [(false, .ok 2), (true, .ok 3)]

theorem legal_atOnce : machine.Legal twoUsers atOnce := by
  refine ⟨?_, ?_, trivial⟩
  · exact
      ⟨⟨0, 1, rfl, rfl⟩, by decide, by decide, by decide,
        by decide, by decide⟩
  · exact
      ⟨⟨0, 1, rfl, rfl⟩, by decide, by decide, by decide,
        by decide, by decide⟩

theorem runs_agree_twoUsers :
    (machine.run twoUsers inParts).kernel =
        (machine.run twoUsers atOnce).kernel ∧
      (machine.run twoUsers inParts).pars =
        (machine.run twoUsers atOnce).pars :=
  runs_agree (fun _ => rfl) independent_twoUsers
    legal_inParts legal_atOnce
    (fun j => by cases j <;> decide)

end Runs

end CopyRange

end Cosmos
