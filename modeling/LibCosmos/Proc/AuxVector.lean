import LibCosmos.Core.Types
import LibCosmos.Foundation.Blocks
import LibCosmos.Foundation.KeyMap
import LibCosmos.Foundation.Machine
import Mathlib.Order.Nat

/-
  The auxiliary vector parser that owns its data
  (`include/proc/AuxVector.hxx`, `src/proc/AuxVector.cxx`).

  A vector of bytes is the block of memory it has, if any.
  Objects and the buffers of callers are the owners of
  blocks. Reading a block that is not allocated any more, or
  behind its end, gives no result. The strings that entries
  point to lie outside of the blocks: where a string starts
  and how long it is stays the same during a run.

  Main declarations:
    * `AuxVector.iterate`, `AuxVector.lookupValue`,
      `AuxVector.asMap`
    * `AuxVector.World.step`, `AuxVector.Op.Faulty`
    * `AuxVector.Independent`
    * `AuxVector.independent_along_iff`
-/

namespace Cosmos

open Blocks

/- The address of a block. -/
abbrev BlockId := Nat

/- A `std::span`; the block is where its pointer points to. -/
structure Span where
  block : Option BlockId := none
  size : Nat := 0
deriving DecidableEq, Repr

structure AuxVector where
  mBuffer : Option BlockId := none
  mView : Span := {}
deriving DecidableEq, Repr

namespace AuxVector

abbrev Memory := Heap BlockId (List Byte)

------------------------------------------------------------
-- Entries
------------------------------------------------------------

/- A type is an `unsigned long`. -/
structure RawEntry where
  type : Nat
  value : UInt64
deriving DecidableEq, Repr

/- The constants of `<elf.h>` that select a data type. -/
namespace AT
def null : Nat := 0
def execFd : Nat := 2
def phdr : Nat := 3
def base : Nat := 7
def entry : Nat := 9
def uid : Nat := 11
def euid : Nat := 12
def gid : Nat := 13
def egid : Nat := 14
def platform : Nat := 15
def secure : Nat := 23
def basePlatform : Nat := 24
def random : Nat := 25
def execFn : Nat := 31
def sysinfo : Nat := 32
def sysinfoEhdr : Nat := 33
end AT

namespace RawEntry

def isString (entry : RawEntry) : Bool :=
  entry.type ∈ [AT.basePlatform, AT.execFn, AT.platform]

def isPointer (entry : RawEntry) : Bool :=
  entry.type ∈
    [AT.base, AT.entry, AT.phdr, AT.sysinfo, AT.sysinfoEhdr]

def isFileNum (entry : RawEntry) : Bool :=
  entry.type = AT.execFd

def isBuffer (entry : RawEntry) : Bool :=
  entry.type = AT.random

def isUID (entry : RawEntry) : Bool :=
  entry.type = AT.uid || entry.type = AT.euid

def isGID (entry : RawEntry) : Bool :=
  entry.type = AT.gid || entry.type = AT.egid

def isBool (entry : RawEntry) : Bool :=
  entry.type = AT.secure

def isNull (entry : RawEntry) : Bool :=
  entry.type = AT.null

/- `sizeof(RawEntry)`. -/
def size : Nat := 16

end RawEntry

/- Strings and buffers are outside of the auxiliary data. -/
inductive Data where
| string (addr : UInt64) (length : Nat)
| number (value : UInt64)
| pointer (addr : UInt64)
| fileNum (fd : FileNum)
| buffer (addr : UInt64) (length : Nat)
| userID (uid : UInt32)
| groupID (gid : UInt32)
| flag (value : Bool)
deriving DecidableEq, Repr

/-
  The lengths of the C strings in memory, by their address.
  Where there is no string, as at a null pointer or in a
  process that is not this one, `strlen` cannot read.
-/
abbrev Strings := UInt64 → Option Nat

/- A `string_view` of a pointer reads up to the null byte. -/
def makeData
    (strlen : Strings) (entry : RawEntry) : Option Data :=
  if entry.isString then
    (strlen entry.value).map (.string entry.value)
  else if entry.isPointer then
    some (.pointer entry.value)
  else if entry.isUID then
    some (.userID entry.value.toUInt32)
  else if entry.isGID then
    some (.groupID entry.value.toUInt32)
  else if entry.isBuffer then
    some (.buffer entry.value 16)
  else if entry.isBool then
    some (.flag (entry.value ≠ 0))
  else if entry.isFileNum then
    some (.fileNum ⟨entry.value.toUInt32.toInt32⟩)
  else
    some (.number entry.value)

/- The string of the entry can be read, if it has one. -/
def Readable (strlen : Strings) (entry : RawEntry) : Prop :=
  entry.isString = true → strlen entry.value ≠ none

instance (strlen : Strings) (entry : RawEntry) :
    Decidable (Readable strlen entry) :=
  inferInstanceAs
    (Decidable
      (entry.isString = true → strlen entry.value ≠ none))

theorem makeData_eq_none_iff
    (strlen : Strings) (entry : RawEntry) :
    makeData strlen entry = none ↔
      ¬ Readable strlen entry := by
  unfold makeData Readable
  by_cases hString : entry.isString = true
  · rw [if_pos hString, Option.map_eq_none_iff]
    simp [hString]
  · rw [if_neg hString]
    constructor
    · intro hNone
      exfalso
      revert hNone
      repeat' split
      all_goals exact Option.some_ne_none _
    · intro hNot
      exact absurd (fun hHere => absurd hHere hString) hNot

/- An `unsigned long` in the order of the machine. -/
def decodeLong (bytes : List Byte) : UInt64 :=
  bytes.foldr (fun b long => long <<< 8 ||| b.toUInt64) 0

/- The entry at an index, if there is memory to read. -/
def readEntry
    (memory : Memory) (buffer : Span) (num : Nat) :
    Option RawEntry :=
  match buffer.block with
  | none => none
  | some b =>
      match memory b with
      | none => none
      | some bytes =>
          let raw :=
            (bytes.drop (num * RawEntry.size)).take
              RawEntry.size
          if raw.length = RawEntry.size then
            some
              { type := (decodeLong (raw.take 8)).toNat
                value := decodeLong (raw.drop 8) }
          else
            none

section Iteration

variable {σ : Type}

/- The loop of `iterate` from the entry `num` on. -/
def iterateLoop
    (memory : Memory) (buffer : Span)
    (cb : RawEntry → σ → Option (Bool × σ)) :
    (rest num : Nat) → σ → Option σ
| 0, _, ret => some ret
| rest + 1, num, ret =>
    match readEntry memory buffer num with
    | none => none
    | some entry =>
        if entry.isNull then
          some ret
        else
          match cb entry ret with
          | none => none
          | some (false, ret') => some ret'
          | some (true, ret') =>
              iterateLoop memory buffer cb rest (num + 1)
                ret'

def iterate
    (memory : Memory) (buffer : Span)
    (cb : RawEntry → σ → Option (Bool × σ)) (ret : σ) :
    Option σ :=
  let numEntries := buffer.size / RawEntry.size
  iterateLoop memory buffer cb numEntries 0 ret

/- What is read is all that a loop depends on. -/
theorem iterateLoop_congr
    {memory memory' : Memory} {buffer : Span}
    (cb : RawEntry → σ → Option (Bool × σ))
    (hRead :
      ∀ num,
        readEntry memory' buffer num =
          readEntry memory buffer num) :
    ∀ (rest num : Nat) (ret : σ),
      iterateLoop memory' buffer cb rest num ret =
        iterateLoop memory buffer cb rest num ret
| 0, _, _ => rfl
| rest + 1, num, ret => by
    unfold iterateLoop
    rw [hRead num]
    cases readEntry memory buffer num with
    | none => rfl
    | some entry =>
        simp only [iterateLoop_congr cb hRead rest]

/-
  There is a result if there is memory for all entries and
  the callback gets at all that it needs.
-/
theorem iterateLoop_isSome
    {memory : Memory} {buffer : Span}
    (cb : RawEntry → σ → Option (Bool × σ))
    (hCall : ∀ entry ret, cb entry ret ≠ none)
    (bound : Nat)
    (hRead :
      ∀ num, num < bound →
        readEntry memory buffer num ≠ none) :
    ∀ (rest num : Nat) (ret : σ), num + rest ≤ bound →
      iterateLoop memory buffer cb rest num ret ≠ none
| 0, _, _, _ => nofun
| rest + 1, num, ret, hBound => by
    unfold iterateLoop
    cases hEntry : readEntry memory buffer num with
    | none => exact absurd hEntry (hRead num (by omega))
    | some entry =>
        by_cases hNull : entry.isNull = true
        · simp [hNull]
        · rcases hCb : cb entry ret with
            _ | ⟨_ | _, ret'⟩
          · exact absurd hCb (hCall entry ret)
          · simp [hNull, hCb]
          · have hRest :=
              iterateLoop_isSome cb hCall bound hRead rest
                (num + 1) ret' (by omega)
            simpa [hNull, hCb] using hRest

end Iteration

section Results

variable (strlen : Strings)

/-
  Both member functions have no result if memory that they
  read is not there.
-/
def lookupValue
    (memory : Memory) (this : AuxVector) (type : Nat) :
    Option (Option Data) :=
  iterate memory this.mView
    (fun entry ret =>
      if entry.type = type then
        (makeData strlen entry).map fun data =>
          (false, some data)
      else
        some (true, ret))
    none

def asMap
    (memory : Memory) (this : AuxVector) :
    Option (List (Nat × Data)) :=
  iterate memory this.mView
    (fun entry ret =>
      (makeData strlen entry).map fun data =>
        (true, (KeyMap.insert entry.type data ret).getD ret))
    []

/- An object sees the same entries in both memories. -/
def SameResults
    (memory memory' : Memory) (this : AuxVector) : Prop :=
  (∀ type,
      lookupValue strlen memory' this type =
        lookupValue strlen memory this type) ∧
    asMap strlen memory' this = asMap strlen memory this

theorem sameResults_of_block
    {memory memory' : Memory} {this : AuxVector}
    (hBlock :
      ∀ b, this.mView.block = some b →
        memory' b = memory b) :
    SameResults strlen memory memory' this := by
  have hRead : ∀ num,
      readEntry memory' this.mView num =
        readEntry memory this.mView num := by
    intro num
    unfold readEntry
    cases hView : this.mView.block with
    | none => rfl
    | some b => simp only [hBlock b hView]
  exact
    ⟨fun type => iterateLoop_congr _ hRead _ _ _,
      iterateLoop_congr _ hRead _ _ _⟩

/- Without an entry nothing is read at all. -/
theorem sameResults_of_small
    {memory memory' : Memory} {this : AuxVector}
    (hSmall : this.mView.size < RawEntry.size) :
    SameResults strlen memory memory' this := by
  have hNone : this.mView.size / RawEntry.size = 0 :=
    Nat.div_eq_of_lt hSmall
  unfold SameResults lookupValue asMap iterate
  simp only [hNone]
  exact ⟨fun _ => rfl, rfl⟩

theorem readEntry_isSome
    {memory : Memory} {buffer : Span} {b : BlockId}
    {bytes : List Byte}
    (hBlock : buffer.block = some b)
    (hBytes : memory b = some bytes)
    {num : Nat}
    (hNum : num < bytes.length / RawEntry.size) :
    readEntry memory buffer num ≠ none := by
  have hLength : RawEntry.size * (num + 1) ≤ bytes.length := by
    rw [Nat.mul_comm]
    exact (Nat.le_div_iff_mul_le (by decide)).mp hNum
  have hRaw :
      ((bytes.drop (num * RawEntry.size)).take
        RawEntry.size).length = RawEntry.size := by
    simp only [RawEntry.size] at hLength ⊢
    simp only [List.length_take, List.length_drop]
    omega
  unfold readEntry
  simp only [hBlock, hBytes]
  rw [if_pos hRaw]
  exact Option.some_ne_none _

/- Data that is gone is missed if it had an entry. -/
theorem not_sameResults_of_gone
    {memory memory' : Memory} {this : AuxVector}
    {b : BlockId} {bytes : List Byte}
    (hBlock : this.mView.block = some b)
    (hBytes : memory b = some bytes)
    (hSize : this.mView.size = bytes.length)
    (hEntry : RawEntry.size ≤ bytes.length)
    (hGone : memory' b = none) :
    ¬ SameResults strlen memory memory' this := by
  intro hSame
  have hLookup := hSame.1 AT.null
  -- no lookup of this type has to read a string
  have hBefore :
      lookupValue strlen memory this AT.null ≠ none := by
    unfold lookupValue iterate
    refine
      iterateLoop_isSome _ ?_ (bytes.length / RawEntry.size)
        ?_ _ 0 none ?_
    · intro entry ret
      by_cases hType : entry.type = AT.null
      · have hData : makeData strlen entry ≠ none := by
          rw [Ne, makeData_eq_none_iff, not_not]
          intro hString
          unfold RawEntry.isString at hString
          rw [hType] at hString
          exact absurd hString (by decide)
        simp [hType, hData]
      · simp [hType]
    · intro num hNum
      exact readEntry_isSome hBlock hBytes hNum
    · rw [hSize, Nat.zero_add]
  have hAfter :
      lookupValue strlen memory' this AT.null = none := by
    have hRead :
        readEntry memory' this.mView 0 = none := by
      simp [readEntry, hBlock, hGone]
    have hSome : 0 < bytes.length / RawEntry.size :=
      Nat.div_pos hEntry (by decide)
    rcases Nat.exists_eq_succ_of_ne_zero hSome.ne' with
      ⟨rest, hRest⟩
    unfold lookupValue iterate
    simp only [hSize, hRest, Nat.succ_eq_add_one,
      iterateLoop, hRead]
  exact hBefore (hLookup.symm.trans hAfter)

end Results

------------------------------------------------------------
-- Objects, Buffers and Operations
------------------------------------------------------------

/- A buffer of a caller, or an object. -/
inductive Slot where
| buffer (block : Option BlockId)
| object (this : AuxVector)
deriving DecidableEq, Repr

def Slot.block : Slot → Option BlockId
| .buffer block => block
| .object this => this.mBuffer

structure World (ι : Type) where
  memory : Memory
  slots : ι → Option Slot

namespace World

variable {ι : Type} (w : World ι)

def own (h : ι) : Option BlockId :=
  (w.slots h).bind Slot.block

/- The bytes in a buffer, or in the buffer of an object. -/
def content (h : ι) : List Byte :=
  match w.own h with
  | none => []
  | some b => (w.memory b).getD []

def view (h : ι) : Span :=
  match w.slots h with
  | some (.object this) => this.mView
  | _ => {}

/- There is no block for nothing. -/
def allocate
    (bytes : List Byte) (b : BlockId) : Option BlockId :=
  if bytes = [] then none else some b

variable [DecidableEq ι]

/- The old block goes, and another one comes. -/
def renew
    (h : ι) (make : Option BlockId → Slot)
    (bytes : List Byte) (b : BlockId) : World ι :=
  let block := allocate bytes b
  { memory :=
      store (release w.memory (w.own h)) block bytes
    slots := Function.update w.slots h (some (make block)) }

/- The block stays, and its bytes are overwritten. -/
def rewrite
    (h : ι) (make : Option BlockId → Slot)
    (bytes : List Byte) : World ι :=
  { memory := store w.memory (w.own h) bytes
    slots :=
      Function.update w.slots h (some (make (w.own h))) }

/- The old block goes, and that of `k` is taken over. -/
def take
    (h k : ι) (make : Option BlockId → Slot)
    (left : Slot) : World ι :=
  { memory := release w.memory (w.own h)
    slots :=
      Function.update
        (Function.update w.slots h (some (make (w.own k))))
        k (some left) }

def drop (h : ι) : World ι :=
  { memory := release w.memory (w.own h)
    slots := Function.update w.slots h none }

end World

/-
  Operations of callers on their buffers, and operations on
  the object at `h`. The environment chooses new blocks, and
  whether an assignment reuses the one that is there.
-/
inductive Op (ι : Type) where
| newBuffer (h : ι) (bytes : List Byte) (b : BlockId)
| writeBuffer (h : ι) (bytes : List Byte)
| reallocBuffer (h : ι) (bytes : List Byte) (b : BlockId)
| destroy (h : ι)
| moveBuffer (h k : ι)
| copyBuffer (h k : ι) (b : BlockId)
| copyBytes (h k : ι) (offset size : Nat) (b : BlockId)
| copyConstruct (h k : ι) (b : BlockId)
| copyAssign (h k : ι) (reuse : Bool) (b : BlockId)
| moveConstruct (h k : ι)
| moveAssign (h k : ι)

/- The bytes that a loop of `push_back` collects. -/
def pushBytes
    (bytes : List Byte) (offset size : Nat) : List Byte :=
  ((bytes.drop offset).take size).foldl
    (fun buffer b => buffer ++ [b]) []

section Operations

variable {ι : Type} [DecidableEq ι]

/- An object with a block and a view of something. -/
def viewing (view : Span) (block : Option BlockId) : Slot :=
  .object { mBuffer := block, mView := view }

/- An object that views its own block. -/
def owning (size : Nat) (block : Option BlockId) : Slot :=
  .object { mBuffer := block, mView := ⟨block, size⟩ }

def World.step (w : World ι) : Op ι → World ι
| .newBuffer h bytes b => w.renew h .buffer bytes b
| .writeBuffer h bytes => w.rewrite h .buffer bytes
| .reallocBuffer h bytes b => w.renew h .buffer bytes b
| .destroy h => w.drop h
| .moveBuffer h k =>
    w.take h k (owning (w.content k).length) (.buffer none)
| .copyBuffer h k b =>
    -- the view is that of `buffer`, not of `m_buffer`
    w.renew h (viewing ⟨w.own k, (w.content k).length⟩)
      (w.content k) b
| .copyBytes h k offset size b =>
    let bytes := pushBytes (w.content k) offset size
    w.renew h (owning bytes.length) bytes b
| .copyConstruct h k b =>
    w.renew h (viewing (w.view k)) (w.content k) b
| .copyAssign h k reuse b =>
    if h = k then
      w
    else if reuse then
      w.rewrite h (viewing (w.view k)) (w.content k)
    else
      w.renew h (viewing (w.view k)) (w.content k) b
| .moveConstruct h k =>
    w.take h k (viewing (w.view k))
      (viewing (w.view k) none)
| .moveAssign h k =>
    if h = k then
      w.renew h (viewing (w.view k)) [] 0
    else
      w.take h k (viewing (w.view k))
        (viewing (w.view k) none)

/- No objects or buffers, and no blocks of theirs. -/
def start : World ι where
  memory _ := none
  slots _ := none

def IsBuffer : Option Slot → Prop
| some (.buffer _) => True
| _ => False

def IsObject : Option Slot → Prop
| some (.object _) => True
| _ => False

def Op.Legal (w : World ι) : Op ι → Prop
| .newBuffer h _ b => w.slots h = none ∧ w.memory b = none
| .writeBuffer h _ => IsBuffer (w.slots h) ∧ w.own h ≠ none
| .reallocBuffer h _ b =>
    IsBuffer (w.slots h) ∧ w.memory b = none
| .destroy h => w.slots h ≠ none
| .moveBuffer h k => w.slots h = none ∧ IsBuffer (w.slots k)
| .copyBuffer h k b =>
    w.slots h = none ∧ IsBuffer (w.slots k) ∧
      w.memory b = none
| .copyBytes h k offset size b =>
    w.slots h = none ∧ w.slots k ≠ none ∧
      offset + size ≤ (w.content k).length ∧
      w.memory b = none
| .copyConstruct h k b =>
    w.slots h = none ∧ IsObject (w.slots k) ∧
      w.memory b = none
| .copyAssign h k reuse b =>
    IsObject (w.slots h) ∧ IsObject (w.slots k) ∧
      if reuse then w.own h ≠ none ∨ w.content k = []
      else w.memory b = none
| .moveConstruct h k =>
    w.slots h = none ∧ IsObject (w.slots k)
| .moveAssign h k =>
    IsObject (w.slots h) ∧ IsObject (w.slots k)

/- The objects or buffers that an operation changes. -/
def Op.Changed : Op ι → ι → Prop
| .newBuffer h _ _ => (· = h)
| .writeBuffer h _ => (· = h)
| .reallocBuffer h _ _ => (· = h)
| .destroy h => (· = h)
| .moveBuffer h k => fun g => g = h ∨ g = k
| .copyBuffer h _ _ => (· = h)
| .copyBytes h _ _ _ _ => (· = h)
| .copyConstruct h _ _ => (· = h)
| .copyAssign h _ _ _ => (· = h)
| .moveConstruct h k => fun g => g = h ∨ g = k
| .moveAssign h k => fun g => g = h ∨ g = k

def machine : Machine (World ι) (Op ι) where
  legal w op := op.Legal w
  step := World.step

/-
  What is left of an object that was moved, and any copy of
  it: a view of data that went to another object.
-/
def Moved (w : World ι) (h : ι) : Prop :=
  (w.content h).length ≠ (w.view h).size

/-
  A copy of an object, or of the vector of a caller, that
  has data for at least one entry.
-/
def Op.Faulty (w : World ι) : Op ι → Prop
| .copyBuffer _ k _ =>
    RawEntry.size ≤ (w.content k).length
| .copyConstruct _ k _ =>
    RawEntry.size ≤ (w.view k).size ∧ ¬ Moved w k
| .copyAssign h k _ _ =>
    h ≠ k ∧ RawEntry.size ≤ (w.view k).size ∧ ¬ Moved w k
| _ => False

/-
  Whatever is done later to other objects and to buffers,
  this object gives the results that it gives now.
-/
def Independent
    (strlen : Strings)
    (w : World ι) (h : ι) (this : AuxVector) : Prop :=
  ∀ later : List (Op ι),
    machine.Legal w later →
    (∀ op ∈ later, ¬ op.Changed h) →
    (machine.run w later).slots h = some (.object this) ∧
      SameResults strlen w.memory
        (machine.run w later).memory this

/- All objects are independent that were not moved from. -/
def Kept
    (strlen : Strings)
    (_ : World ι) (_ : Op ι) (w' : World ι) : Prop :=
  ∀ h this,
    w'.slots h = some (.object this) →
    ¬ Moved w' h →
    Independent strlen w' h this

------------------------------------------------------------
-- Blocks of Objects and Buffers
------------------------------------------------------------

theorem own_renew
    (w : World ι) (h : ι) (make : Option BlockId → Slot)
    (bytes : List Byte) (b : BlockId)
    (hMake : ∀ block, (make block).block = block) :
    (w.renew h make bytes b).own =
      Function.update w.own h
        (World.allocate bytes b) := by
  funext g
  by_cases hg : g = h
  · subst hg
    simp [World.own, World.renew, hMake]
  · simp [World.own, World.renew, hg]

theorem own_rewrite
    (w : World ι) (h : ι) (make : Option BlockId → Slot)
    (bytes : List Byte)
    (hMake : ∀ block, (make block).block = block) :
    (w.rewrite h make bytes).own = w.own := by
  funext g
  by_cases hg : g = h
  · subst hg
    have hOwn :
        (w.rewrite g make bytes).own g =
          (make (w.own g)).block := by
      simp [World.own, World.rewrite]
    rw [hOwn, hMake]
  · simp [World.own, World.rewrite, hg]

theorem own_take
    (w : World ι) (h k : ι) (make : Option BlockId → Slot)
    (left : Slot)
    (hMake : ∀ block, (make block).block = block)
    (hLeft : left.block = none) :
    (w.take h k make left).own =
      Function.update
        (Function.update w.own h (w.own k)) k none := by
  funext g
  by_cases hk : g = k
  · subst hk
    simp [World.own, World.take, hLeft]
  · by_cases hh : g = h
    · subst hh
      have hOwn :
          (w.take g k make left).own g =
            (make (w.own k)).block := by
        simp [World.own, World.take, hk]
      simp [hOwn, hMake, hk]
    · simp [World.own, World.take, hk, hh]

theorem own_drop (w : World ι) (h : ι) :
    (w.drop h).own = Function.update w.own h none := by
  funext g
  by_cases hg : g = h
  · subst hg
    simp [World.own, World.drop]
  · simp [World.own, World.drop, hg]

omit [DecidableEq ι] in
theorem allocate_fresh
    {w : World ι} {bytes : List Byte} {b : BlockId}
    (hFresh : w.memory b = none) :
    ∀ c, World.allocate bytes b = some c →
      w.memory c = none := by
  intro c hBlock
  unfold World.allocate at hBlock
  by_cases hNone : bytes = []
  · simp [hNone] at hBlock
  · simp only [hNone, if_false, Option.some.injEq] at hBlock
    rw [← hBlock]
    exact hFresh

/- What every operation keeps, faulty or not. -/
structure Frame (w w' : World ι) (Changed : ι → Prop) :
    Prop where
  exclusive : Exclusive w'.own w'.memory
  slots : ∀ g, ¬ Changed g → w'.slots g = w.slots g
  blocks :
    ∀ g b, ¬ Changed g → w.own g = some b →
      w'.memory b = w.memory b

section Frames

variable {w : World ι}

theorem frame_renew
    (hExclusive : Exclusive w.own w.memory)
    (h : ι) (make : Option BlockId → Slot)
    (bytes : List Byte) (b : BlockId)
    (hMake : ∀ block, (make block).block = block)
    (hFresh :
      ∀ c, World.allocate bytes b = some c →
        w.memory c = none) :
    Frame w (w.renew h make bytes b) (· = h) where
  exclusive := by
    rw [own_renew w h make bytes b hMake]
    exact hExclusive.renew h bytes hFresh
  slots := by
    intro g hNe
    simp [World.renew, hNe]
  blocks := by
    intro g c hNe hOwn
    exact renew_apply hExclusive bytes hFresh hNe hOwn

theorem frame_rewrite
    (hExclusive : Exclusive w.own w.memory)
    (h : ι) (make : Option BlockId → Slot)
    (bytes : List Byte)
    (hMake : ∀ block, (make block).block = block) :
    Frame w (w.rewrite h make bytes) (· = h) where
  exclusive := by
    rw [own_rewrite w h make bytes hMake]
    exact hExclusive.rewrite h bytes
  slots := by
    intro g hNe
    simp [World.rewrite, hNe]
  blocks := by
    intro g c hNe hOwn
    exact rewrite_apply hExclusive bytes hNe hOwn

theorem frame_take
    (hExclusive : Exclusive w.own w.memory)
    {h k : ι} (hNe : h ≠ k)
    (make : Option BlockId → Slot) (left : Slot)
    (hMake : ∀ block, (make block).block = block)
    (hLeft : left.block = none) :
    Frame w (w.take h k make left)
      (fun g => g = h ∨ g = k) where
  exclusive := by
    rw [own_take w h k make left hMake hLeft]
    exact hExclusive.take hNe.symm
  slots := by
    intro g hg
    rcases not_or.mp hg with ⟨hh, hk⟩
    simp [World.take, hh, hk]
  blocks := by
    intro g c hg hOwn
    exact take_apply hExclusive (not_or.mp hg).1 hOwn

theorem frame_drop
    (hExclusive : Exclusive w.own w.memory) (h : ι) :
    Frame w (w.drop h) (· = h) where
  exclusive := by
    rw [own_drop]
    have hNone :
        ∀ c, (none : Option BlockId) = some c →
          w.memory c = none := nofun
    exact hExclusive.renew h [] hNone
  slots := by
    intro g hNe
    simp [World.drop, hNe]
  blocks := by
    intro g c hNe hOwn
    exact take_apply hExclusive hNe hOwn

omit [DecidableEq ι] in
theorem ne_of_live
    {h k : ι}
    (hNone : w.slots h = none) {P : Option Slot → Prop}
    (hLive : P (w.slots k)) (hP : ¬ P none) : h ≠ k := by
  rintro rfl
  rw [hNone] at hLive
  exact hP hLive

/- Assigning an object to itself does nothing. -/
theorem step_copyAssign_self
    {h k : ι} (hSelf : h = k) (reuse : Bool) (b : BlockId) :
    w.step (.copyAssign h k reuse b) = w := by
  simp only [World.step, if_pos hSelf]

theorem step_copyAssign_reuse
    {h k : ι} (hNe : h ≠ k) (b : BlockId) :
    w.step (.copyAssign h k true b) =
      w.rewrite h (viewing (w.view k)) (w.content k) := by
  simp only [World.step, if_neg hNe, if_true]

theorem step_copyAssign_fresh
    {h k : ι} (hNe : h ≠ k) (b : BlockId) :
    w.step (.copyAssign h k false b) =
      w.renew h (viewing (w.view k)) (w.content k) b := by
  simp only [World.step, if_neg hNe, Bool.false_eq_true,
    if_false]

theorem frame_step
    (hExclusive : Exclusive w.own w.memory)
    {op : Op ι} (hLegal : op.Legal w) :
    Frame w (w.step op) op.Changed := by
  cases op with
  | newBuffer h bytes b =>
      simp only [World.step]
      apply frame_renew hExclusive h
      · exact fun _ => rfl
      · exact allocate_fresh hLegal.2
  | writeBuffer h bytes =>
      exact frame_rewrite hExclusive h _ _ (fun _ => rfl)
  | reallocBuffer h bytes b =>
      simp only [World.step]
      apply frame_renew hExclusive h
      · exact fun _ => rfl
      · exact allocate_fresh hLegal.2
  | destroy h => exact frame_drop hExclusive h
  | moveBuffer h k =>
      simp only [World.step]
      apply frame_take hExclusive
      · exact ne_of_live hLegal.1 hLegal.2 id
      · exact fun _ => rfl
      · rfl
  | copyBuffer h k b =>
      simp only [World.step]
      apply frame_renew hExclusive h
      · exact fun _ => rfl
      · exact allocate_fresh hLegal.2.2
  | copyBytes h k offset size b =>
      simp only [World.step]
      apply frame_renew hExclusive h
      · exact fun _ => rfl
      · exact allocate_fresh hLegal.2.2.2
  | copyConstruct h k b =>
      simp only [World.step]
      apply frame_renew hExclusive h
      · exact fun _ => rfl
      · exact allocate_fresh hLegal.2.2
  | copyAssign h k reuse b =>
      by_cases hSelf : h = k
      · rw [step_copyAssign_self hSelf]
        exact
          { exclusive := hExclusive
            slots := fun _ _ => rfl
            blocks := fun _ _ _ _ => rfl }
      · cases reuse with
        | true =>
            rw [step_copyAssign_reuse hSelf]
            exact
              frame_rewrite hExclusive h _ _ (fun _ => rfl)
        | false =>
            rw [step_copyAssign_fresh hSelf]
            apply frame_renew hExclusive h
            · exact fun _ => rfl
            · exact allocate_fresh hLegal.2.2
  | moveConstruct h k =>
      simp only [World.step]
      apply frame_take hExclusive
      · exact ne_of_live hLegal.1 hLegal.2 id
      · exact fun _ => rfl
      · rfl
  | moveAssign h k =>
      by_cases hSelf : h = k
      · subst hSelf
        simp only [World.step, if_true]
        have hFrame :=
          frame_renew hExclusive h (viewing (w.view h)) [] 0
            (fun _ => rfl) nofun
        exact
          { exclusive := hFrame.exclusive
            slots := fun g hg => hFrame.slots g fun hSame =>
              hg (Or.inl hSame)
            blocks := fun g b hg => hFrame.blocks g b
              fun hSame => hg (Or.inl hSame) }
      · simp only [World.step, if_neg hSelf]
        exact
          frame_take hExclusive hSelf _ _ (fun _ => rfl) rfl

end Frames

------------------------------------------------------------
-- Contents and Views
------------------------------------------------------------

omit [DecidableEq ι] in
theorem content_of_frame
    {w w' : World ι} {Changed : ι → Prop}
    (hFrame : Frame w w' Changed)
    {g : ι} (hSame : ¬ Changed g) :
    w'.content g = w.content g := by
  have hOwn : w'.own g = w.own g := by
    unfold World.own
    rw [hFrame.slots g hSame]
  unfold World.content
  rw [hOwn]
  cases hBlock : w.own g with
  | none => rfl
  | some b => simp only [hFrame.blocks g b hSame hBlock]

theorem content_renew
    (w : World ι) (h : ι) (make : Option BlockId → Slot)
    (bytes : List Byte) (b : BlockId)
    (hMake : ∀ block, (make block).block = block) :
    (w.renew h make bytes b).content h = bytes := by
  unfold World.content
  rw [own_renew w h make bytes b hMake,
    Function.update_self]
  by_cases hNone : bytes = []
  · simp [World.allocate, hNone]
  · simp [World.allocate, hNone, World.renew]

theorem content_rewrite
    (w : World ι) (h : ι) (make : Option BlockId → Slot)
    (bytes : List Byte)
    (hMake : ∀ block, (make block).block = block)
    (hBlock : w.own h ≠ none ∨ bytes = []) :
    (w.rewrite h make bytes).content h = bytes := by
  unfold World.content
  rw [own_rewrite w h make bytes hMake]
  cases hOwn : w.own h with
  | none =>
      have hNone : bytes = [] :=
        hBlock.resolve_left fun hSome => hSome hOwn
      simp [hNone]
  | some b => simp [World.rewrite, hOwn]

theorem content_take
    {w : World ι}
    (hExclusive : Exclusive w.own w.memory)
    {h k : ι} (hNe : h ≠ k)
    (make : Option BlockId → Slot) (left : Slot)
    (hMake : ∀ block, (make block).block = block)
    (hLeft : left.block = none) :
    (w.take h k make left).content h = w.content k := by
  unfold World.content
  rw [own_take w h k make left hMake hLeft,
    Function.update_of_ne hNe, Function.update_self]
  cases hOwn : w.own k with
  | none => rfl
  | some b =>
      simp only [World.take,
        take_apply hExclusive hNe.symm hOwn]

omit [DecidableEq ι] in
theorem content_of_none
    {w : World ι} {h : ι} {slot : Slot}
    (hSlot : w.slots h = some slot)
    (hBlock : slot.block = none) :
    w.content h = [] := by
  simp [World.content, World.own, hSlot, hBlock]

omit [DecidableEq ι] in
theorem view_of_object
    {w : World ι} {h : ι} {this : AuxVector}
    (hObj : w.slots h = some (.object this)) :
    w.view h = this.mView := by
  simp [World.view, hObj]

omit [DecidableEq ι] in
theorem own_of_object
    {w : World ι} {h : ι} {this : AuxVector}
    (hObj : w.slots h = some (.object this)) :
    w.own h = this.mBuffer := by
  simp [World.own, hObj, Slot.block]

theorem slots_renew
    (w : World ι) (h : ι) (make : Option BlockId → Slot)
    (bytes : List Byte) (b : BlockId) :
    (w.renew h make bytes b).slots h =
      some (make (World.allocate bytes b)) :=
  Function.update_self ..

theorem slots_rewrite
    (w : World ι) (h : ι) (make : Option BlockId → Slot)
    (bytes : List Byte) :
    (w.rewrite h make bytes).slots h =
      some (make (w.own h)) :=
  Function.update_self ..

theorem slots_take
    (w : World ι) {h k : ι} (hNe : h ≠ k)
    (make : Option BlockId → Slot) (left : Slot) :
    (w.take h k make left).slots h =
      some (make (w.own k)) := by
  simp [World.take, hNe]

/-
  Objects look at their own blocks, unless there is nothing
  to read for them or they were moved from.
-/
def OwnView (w : World ι) (h : ι) : Prop :=
  IsObject (w.slots h) → ¬ Moved w h →
    (w.view h).block = w.own h ∨
      (w.view h).size < RawEntry.size

omit [DecidableEq ι] in
theorem ownView_of_frame
    {w w' : World ι} {Changed : ι → Prop}
    (hFrame : Frame w w' Changed)
    {g : ι} (hSame : ¬ Changed g)
    (hView : OwnView w g) :
    OwnView w' g := by
  unfold OwnView Moved World.view World.own at hView ⊢
  rw [hFrame.slots g hSame, content_of_frame hFrame hSame]
  exact hView

omit [DecidableEq ι] in
/- A copy that has no entries. -/
theorem ownView_of_copy
    {w w' : World ι} {h k : ι} {block : Option BlockId}
    (hObj :
      w'.slots h = some (.object ⟨block, w.view k⟩))
    (hContent : w'.content h = w.content k)
    (hGood :
      ¬ (RawEntry.size ≤ (w.view k).size ∧ ¬ Moved w k)) :
    OwnView w' h := by
  intro _ hMoved
  unfold Moved at hMoved hGood
  rw [view_of_object hObj, hContent] at hMoved
  rw [view_of_object hObj]
  refine Or.inr ?_
  by_contra hLarge
  exact hGood ⟨not_lt.mp hLarge, hMoved⟩

omit [DecidableEq ι] in
/- An object that took over another one. -/
theorem ownView_of_taken
    {w w' : World ι} {h k : ι}
    (hSource : IsObject (w.slots k))
    (hView : OwnView w k)
    (hObj :
      w'.slots h = some (.object ⟨w.own k, w.view k⟩))
    (hContent : w'.content h = w.content k) :
    OwnView w' h := by
  intro _ hMoved
  unfold Moved at hMoved
  rw [view_of_object hObj, hContent] at hMoved
  rw [view_of_object hObj, own_of_object hObj]
  exact hView hSource hMoved

omit [DecidableEq ι] in
/- An object that lost its block. -/
theorem ownView_of_left
    {w : World ι} {h : ι} {view : Span}
    (hObj : w.slots h = some (.object ⟨none, view⟩)) :
    OwnView w h := by
  intro _ hMoved
  unfold Moved at hMoved
  rw [view_of_object hObj, content_of_none hObj rfl] at hMoved
  rw [view_of_object hObj]
  refine Or.inr ?_
  have hSize : 0 = view.size := Classical.not_not.mp hMoved
  rw [← hSize]
  exact Nat.succ_pos 15

omit [DecidableEq ι] in
theorem ownView_of_buffer
    {w : World ι} {h : ι} {block : Option BlockId}
    (hSlot : w.slots h = some (.buffer block)) :
    OwnView w h := by
  intro hObject
  rw [hSlot] at hObject
  exact hObject.elim

omit [DecidableEq ι] in
theorem ownView_of_own
    {w : World ι} {h : ι} {block : Option BlockId}
    {size : Nat}
    (hObj :
      w.slots h = some (.object ⟨block, ⟨block, size⟩⟩)) :
    OwnView w h := by
  intro _ _
  rw [view_of_object hObj, own_of_object hObj]
  exact Or.inl rfl

------------------------------------------------------------
-- One Operation
------------------------------------------------------------

/- Both sides of a move. -/
theorem ownView_take
    {w : World ι}
    (hExclusive : Exclusive w.own w.memory)
    {g h k : ι} (hNe : h ≠ k)
    (hSource : IsObject (w.slots k))
    (hView : OwnView w k)
    (hChanged : g = h ∨ g = k) :
    OwnView
      (w.take h k (viewing (w.view k))
        (viewing (w.view k) none)) g := by
  rcases hChanged with rfl | rfl
  · refine
      ownView_of_taken hSource hView (slots_take w hNe _ _) ?_
    exact
      content_take hExclusive hNe (viewing (w.view k))
        (viewing (w.view k) none) (fun _ => rfl) rfl
  · exact ownView_of_left (Function.update_self ..)

theorem ownView_changed
    {w : World ι}
    (hExclusive : Exclusive w.own w.memory)
    (hViews : ∀ h, OwnView w h)
    {op : Op ι}
    (hLegal : op.Legal w)
    (hGood : ¬ op.Faulty w)
    {g : ι} (hChanged : op.Changed g) :
    OwnView (w.step op) g := by
  cases op with
  | newBuffer h bytes b =>
      cases hChanged
      exact ownView_of_buffer (Function.update_self ..)
  | writeBuffer h bytes =>
      cases hChanged
      exact ownView_of_buffer (Function.update_self ..)
  | reallocBuffer h bytes b =>
      cases hChanged
      exact ownView_of_buffer (Function.update_self ..)
  | destroy h =>
      cases hChanged
      intro hObject
      simp [World.step, World.drop, IsObject] at hObject
  | moveBuffer h k =>
      have hNe := ne_of_live hLegal.1 hLegal.2 id
      rcases hChanged with hHere | hThere
      · rw [hHere]
        exact ownView_of_own (slots_take w hNe _ _)
      · rw [hThere]
        exact ownView_of_buffer (Function.update_self ..)
  | copyBuffer h k b =>
      rw [show g = h from hChanged]
      intro _ _
      refine Or.inr ?_
      rw [view_of_object (slots_renew w h _ _ b)]
      exact not_le.mp hGood
  | copyBytes h k offset size b =>
      rw [show g = h from hChanged]
      exact ownView_of_own (slots_renew w h _ _ b)
  | copyConstruct h k b =>
      rw [show g = h from hChanged]
      refine
        ownView_of_copy (slots_renew w h _ _ b) ?_ hGood
      exact content_renew w h _ _ b fun _ => rfl
  | copyAssign h k reuse b =>
      rw [show g = h from hChanged]
      by_cases hSelf : h = k
      · rw [step_copyAssign_self hSelf]
        exact hViews h
      · have hCopied :
            ¬ (RawEntry.size ≤ (w.view k).size ∧
              ¬ Moved w k) := fun hBoth =>
          hGood ⟨hSelf, hBoth⟩
        cases reuse with
        | true =>
            rw [step_copyAssign_reuse hSelf]
            refine
              ownView_of_copy (slots_rewrite w h _ _) ?_
                hCopied
            exact
              content_rewrite w h _ _ (fun _ => rfl)
                hLegal.2.2
        | false =>
            rw [step_copyAssign_fresh hSelf]
            refine
              ownView_of_copy (slots_renew w h _ _ b) ?_
                hCopied
            exact content_renew w h _ _ b fun _ => rfl
  | moveConstruct h k =>
      have hNe := ne_of_live hLegal.1 hLegal.2 id
      exact
        ownView_take hExclusive hNe hLegal.2 (hViews k)
          hChanged
  | moveAssign h k =>
      by_cases hSelf : h = k
      · have hHere : g = h :=
          hChanged.elim id fun hThere =>
            hThere.trans hSelf.symm
        rw [hHere]
        simp only [World.step, if_pos hSelf]
        exact ownView_of_left (Function.update_self ..)
      · simp only [World.step, if_neg hSelf]
        exact
          ownView_take hExclusive hSelf hLegal.2 (hViews k)
            hChanged

/- Blocks have one owner, and objects look at their own. -/
structure Sound (w : World ι) : Prop where
  exclusive : Exclusive w.own w.memory
  views : ∀ h, OwnView w h

omit [DecidableEq ι] in
theorem sound_start : Sound (start : World ι) where
  exclusive := ⟨nofun, nofun⟩
  views := nofun

theorem sound_step
    {w : World ι} (hSound : Sound w)
    {op : Op ι}
    (hLegal : op.Legal w)
    (hGood : ¬ op.Faulty w) :
    Sound (w.step op) := by
  have hFrame := frame_step hSound.exclusive hLegal
  refine
    { exclusive := hFrame.exclusive
      views := ?_ }
  intro g
  by_cases hChanged : op.Changed g
  · exact
      ownView_changed hSound.exclusive hSound.views hLegal
        hGood hChanged
  · exact ownView_of_frame hFrame hChanged (hSound.views g)

------------------------------------------------------------
-- Runs
------------------------------------------------------------

/-
  Operations on other objects and buffers, whichever they
  are, leave an object and its block alone.
-/
theorem frame_run :
    ∀ (later : List (Op ι)) (w : World ι) (h : ι),
      Exclusive w.own w.memory →
      machine.Legal w later →
      (∀ op ∈ later, ¬ op.Changed h) →
      (machine.run w later).slots h = w.slots h ∧
        ∀ b, w.own h = some b →
          (machine.run w later).memory b = w.memory b
| [], _, _, _, _, _ => ⟨rfl, fun _ _ => rfl⟩
| op :: later, w, h, hExclusive, hLegal, hOthers => by
    have hFrame := frame_step hExclusive hLegal.1
    have hSame : ¬ op.Changed h :=
      hOthers op List.mem_cons_self
    have hSlot := hFrame.slots h hSame
    rcases frame_run later (w.step op) h hFrame.exclusive
        hLegal.2
        (fun op' hMem =>
          hOthers op' (List.mem_cons_of_mem op hMem)) with
      ⟨hSlots, hBlocks⟩
    refine ⟨hSlots.trans hSlot, ?_⟩
    intro b hOwn
    have hOwn' : (w.step op).own h = some b := by
      unfold World.own at hOwn ⊢
      rw [hSlot]
      exact hOwn
    exact
      (hBlocks b hOwn').trans
        (hFrame.blocks h b hSame hOwn)

theorem independent_of_sound
    (strlen : Strings)
    {w : World ι} (hSound : Sound w)
    {h : ι} {this : AuxVector}
    (hObj : w.slots h = some (.object this))
    (hMoved : ¬ Moved w h) :
    Independent strlen w h this := by
  intro later hLegal hOthers
  rcases frame_run later w h hSound.exclusive hLegal
      hOthers with
    ⟨hSlots, hBlocks⟩
  refine ⟨hSlots.trans hObj, ?_⟩
  have hView :=
    hSound.views h (by rw [hObj]; trivial) hMoved
  rw [view_of_object hObj] at hView
  rcases hView with hOwn | hSmall
  · refine sameResults_of_block strlen ?_
    intro b hBlock
    exact hBlocks b (hOwn.symm.trans hBlock)
  · exact sameResults_of_small strlen hSmall

/-
  An object that looks at the block of another owner misses
  its entries when that owner is gone.
-/
theorem not_independent_of_view
    (strlen : Strings)
    {w : World ι}
    (hExclusive : Exclusive w.own w.memory)
    {h k : ι} (hNe : h ≠ k)
    {this : AuxVector}
    (hOwn : w.own k = this.mView.block)
    (hSize : this.mView.size = (w.content k).length)
    (hEntry : RawEntry.size ≤ (w.content k).length) :
    ¬ Independent strlen w h this := by
  intro hIndependent
  cases hBlock : w.own k with
  | none =>
      simp [World.content, hBlock, RawEntry.size] at hEntry
  | some b =>
      have hLive : w.slots k ≠ none := by
        intro hNone
        simp [World.own, hNone] at hBlock
      rcases Option.ne_none_iff_exists'.mp
          (hExclusive.live k b hBlock) with
        ⟨bytes, hBytes⟩
      have hContent : w.content k = bytes := by
        simp [World.content, hBlock, hBytes]
      rw [hContent] at hSize hEntry
      have hResults :=
        hIndependent [.destroy k] ⟨hLive, trivial⟩
          (fun op hMem => by
            rw [List.mem_singleton.mp hMem]
            exact hNe)
      refine
        not_sameResults_of_gone strlen
          (hOwn.symm.trans hBlock) hBytes hSize hEntry ?_
          hResults.2
      simp [Machine.run, machine, World.step, World.drop,
        hBlock]

/- A copy of an object with entries looks at that object. -/
theorem not_kept_of_copy
    (strlen : Strings)
    {w : World ι} (hSound : Sound w)
    {op : Op ι} (hLegal : op.Legal w)
    {h k : ι} {block : Option BlockId}
    (hNe : h ≠ k)
    (hSame : ¬ op.Changed k)
    (hSource : IsObject (w.slots k))
    (hLarge : RawEntry.size ≤ (w.view k).size)
    (hMoved : ¬ Moved w k)
    (hObj :
      (w.step op).slots h =
        some (.object ⟨block, w.view k⟩))
    (hContent : (w.step op).content h = w.content k) :
    ¬ Kept strlen w op (w.step op) := by
  intro hKept
  have hFrame := frame_step hSound.exclusive hLegal
  have hSize : (w.content k).length = (w.view k).size :=
    Classical.not_not.mp hMoved
  have hThere := content_of_frame hFrame hSame
  have hOwn : (w.step op).own k = (w.view k).block := by
    have hView := hSound.views k hSource hMoved
    have hBlock := hView.resolve_right (not_lt.mpr hLarge)
    unfold World.own at hBlock ⊢
    rw [hFrame.slots k hSame, hBlock]
  refine
    not_independent_of_view strlen hFrame.exclusive hNe hOwn
      ?_ ?_ (hKept h _ hObj ?_)
  · rw [hThere]
    exact hSize.symm
  · rw [hThere, hSize]
    exact hLarge
  · unfold Moved
    rw [view_of_object hObj, hContent]
    exact hMoved

theorem not_kept_of_faulty
    (strlen : Strings)
    {w : World ι} (hSound : Sound w)
    {op : Op ι} (hLegal : op.Legal w)
    (hFaulty : op.Faulty w) :
    ¬ Kept strlen w op (w.step op) := by
  cases op with
  | copyBuffer h k b =>
      intro hKept
      have hFrame := frame_step hSound.exclusive hLegal
      have hNe := ne_of_live hLegal.1 hLegal.2.1 id
      have hSame : ¬ (Op.copyBuffer h k b).Changed k :=
        hNe.symm
      have hThere := content_of_frame hFrame hSame
      have hObj :
          (w.step (.copyBuffer h k b)).slots h =
            some
              (.object
                ⟨World.allocate (w.content k) b,
                  ⟨w.own k, (w.content k).length⟩⟩) :=
        slots_renew w h _ _ b
      have hContent :
          (w.step (.copyBuffer h k b)).content h =
            w.content k :=
        content_renew w h
          (viewing ⟨w.own k, (w.content k).length⟩) _ b
          fun _ => rfl
      have hOwn :
          (w.step (.copyBuffer h k b)).own k = w.own k := by
        unfold World.own
        rw [hFrame.slots k hSame]
      refine
        not_independent_of_view strlen hFrame.exclusive hNe
          hOwn ?_ ?_ (hKept h _ hObj ?_)
      · rw [hThere]
      · rw [hThere]
        exact hFaulty
      · unfold Moved
        rw [view_of_object hObj, hContent]
        exact fun hDiffer => hDiffer rfl
  | copyConstruct h k b =>
      have hNe := ne_of_live hLegal.1 hLegal.2.1 id
      refine
        not_kept_of_copy strlen hSound hLegal hNe hNe.symm
          hLegal.2.1 hFaulty.1 hFaulty.2
          (slots_renew w h _ _ b) ?_
      exact
        content_renew w h (viewing (w.view k)) _ b
          fun _ => rfl
  | copyAssign h k reuse b =>
      rcases hFaulty with ⟨hNe, hLarge, hMoved⟩
      have hSame : ¬ (Op.copyAssign h k reuse b).Changed k :=
        Ne.symm hNe
      cases reuse with
      | true =>
          have hStep := step_copyAssign_reuse (w := w) hNe b
          refine
            not_kept_of_copy strlen hSound hLegal hNe hSame
              hLegal.2.1 hLarge hMoved
              (hStep ▸ slots_rewrite w h _ _) ?_
          rw [hStep]
          exact
            content_rewrite w h _ _ (fun _ => rfl)
              hLegal.2.2
      | false =>
          have hStep := step_copyAssign_fresh (w := w) hNe b
          refine
            not_kept_of_copy strlen hSound hLegal hNe hSame
              hLegal.2.1 hLarge hMoved
              (hStep ▸ slots_renew w h _ _ b) ?_
          rw [hStep]
          exact content_renew w h _ _ b fun _ => rfl
  | _ => exact hFaulty.elim

/-
  In a run of operations on buffers and objects all objects
  are independent of what they were made from exactly as
  long as no operation is faulty.
-/
theorem independent_along_iff
    (strlen : Strings)
    (ops : List (Op ι))
    (hLegal : machine.Legal start ops) :
    machine.Along (Kept strlen) start ops ↔
      machine.Along (fun w op _ => ¬ op.Faulty w) start
        ops := by
  refine
    Machine.along_iff_of_invariant Sound ?_ ?_ ops start
      sound_start hLegal
  · intro w op hSound hOp hGood
    have hAfter := sound_step hSound hOp hGood
    exact
      ⟨hAfter, fun h this hObj hMoved =>
        independent_of_sound strlen hAfter hObj hMoved⟩
  · intro w op hSound hOp hFaulty
    exact
      not_kept_of_faulty strlen hSound hOp
        (Classical.not_not.mp hFaulty)

end Operations

/- An entry with the page size, and the end. -/
def pageSizeVector (pages : Byte) : List Byte :=
  [6, 0, 0, 0, 0, 0, 0, 0, 0, pages, 0, 0, 0, 0, 0, 0] ++
    List.replicate 16 0

/-
  Two objects own a copy of the data and the data itself,
  one of them is moved twice, and the buffer is dropped.
-/
theorem independent_along_moves :
    machine.Along (Kept fun _ => none) (start : World Nat)
      [.newBuffer 0 (pageSizeVector 16) 10,
        .copyBytes 1 0 0 32 11,
        .moveBuffer 2 0,
        .moveConstruct 3 1,
        .moveAssign 2 3,
        .destroy 0] := by
  refine
    (independent_along_iff (fun _ => none)
      [.newBuffer 0 (pageSizeVector 16) 10,
        .copyBytes 1 0 0 32 11,
        .moveBuffer 2 0,
        .moveConstruct 3 1,
        .moveAssign 2 3,
        .destroy 0] ?_).mpr ?_
  · refine
      ⟨⟨rfl, rfl⟩, ⟨rfl, nofun, ?_, rfl⟩, ⟨rfl, trivial⟩,
        ⟨rfl, trivial⟩, ⟨trivial, trivial⟩, nofun, trivial⟩
    decide
  · exact ⟨id, id, id, id, id, id, trivial⟩

/-
  The caller writes another page size to the vector that was
  copied, and the object finds it.
-/
theorem copyBuffer_follows_source :
    machine.Legal (start : World Nat)
        [.newBuffer 0 (pageSizeVector 16) 10,
          .copyBuffer 1 0 11,
          .writeBuffer 0 (pageSizeVector 32)] ∧
      lookupValue (fun _ => none)
          (machine.run (start : World Nat)
            [.newBuffer 0 (pageSizeVector 16) 10,
              .copyBuffer 1 0 11]).memory
          ⟨some 11, ⟨some 10, 32⟩⟩ 6 =
        some (some (.number 4096)) ∧
      lookupValue (fun _ => none)
          (machine.run (start : World Nat)
            [.newBuffer 0 (pageSizeVector 16) 10,
              .copyBuffer 1 0 11,
              .writeBuffer 0 (pageSizeVector 32)]).memory
          ⟨some 11, ⟨some 10, 32⟩⟩ 6 =
        some (some (.number 8192)) ∧
      ¬ machine.Along (Kept fun _ => none) (start : World Nat)
        [.newBuffer 0 (pageSizeVector 16) 10,
          .copyBuffer 1 0 11] := by
  refine
    ⟨⟨⟨rfl, rfl⟩, ⟨rfl, trivial, rfl⟩, ⟨trivial, nofun⟩,
      trivial⟩, by decide, by decide, ?_⟩
  rintro ⟨-, hKept, -⟩
  have hResults :=
    hKept 1 ⟨some 11, ⟨some 10, 32⟩⟩ rfl
      (fun hMoved => hMoved rfl)
      [.writeBuffer 0 (pageSizeVector 32)]
      ⟨⟨trivial, nofun⟩, trivial⟩
      (fun op hMem => by
        rw [List.mem_singleton.mp hMem]
        exact Nat.one_ne_zero)
  exact absurd (hResults.2.1 6) (by decide)

end AuxVector

end Cosmos

