import LibCosmos.Core.Types
import LibCosmos.Foundation.Machine
import Mathlib.Data.List.Basic
import Mathlib.Logic.Function.Basic

/-
  Arrays of a fixed capacity with a number of used elements
  (`include/SizedArray.hxx`).

  Elements behind the used ones stay in the array. What the
  array stands for is the list of the used elements.

  Main declarations:
    * `SizedArray` and its operations
    * `SizedArray.contents`, `SizedArray.Agrees`
    * `SizedArray.Spec.perform`, `SizedArray.Refines`
    * `SizedArray.refines_along_iff`
-/

namespace Cosmos

/-
  A `SizedArray`. The constructor refuses larger sizes, so
  the bound is part of the type.
-/
structure SizedArray (T : Type) (N : Nat) where
  mArray : Vector T N
  mUsed : Nat
  used_le : mUsed ≤ N

namespace SizedArray

variable {T : Type} {N : Nat}

------------------------------------------------------------
-- Operations
------------------------------------------------------------

def outOfRange (what : String) : Exn :=
  .stdException (str what)

/- The constructor with an initial value and a size. -/
def create (init : T) (size : Nat) :
    Except Exn (SizedArray T N) :=
  if hSize : size ≤ N then
    .ok ⟨Vector.replicate N init, size, hSize⟩
  else
    .error (outOfRange "excess array init size")

def clear (a : SizedArray T N) : SizedArray T N :=
  ⟨a.mArray, 0, Nat.zero_le N⟩

def isEmpty (a : SizedArray T N) : Bool :=
  a.mUsed == 0

def size (a : SizedArray T N) : Nat :=
  a.mUsed

/- `at`; the check of `std::array::at` comes behind it. -/
def readAt (a : SizedArray T N) (i : Nat) : Except Exn T :=
  if a.mUsed ≤ i then
    .error (outOfRange "access beyond used elements")
  else
    match a.mArray[i]? with
    | some t => .ok t
    | none => .error (outOfRange "array::at")

/- An assignment to the reference that `at` returns. -/
def writeAt (a : SizedArray T N) (i : Nat) (t : T) :
    Except Exn (SizedArray T N) :=
  if a.mUsed ≤ i then
    .error (outOfRange "access beyond used elements")
  else
    .ok ⟨a.mArray.setIfInBounds i t, a.mUsed, a.used_le⟩

/- An assignment to what `operator[]` returns. -/
def writeIndex (a : SizedArray T N) (i : Nat) (t : T) :
    SizedArray T N :=
  ⟨a.mArray.setIfInBounds i t, a.mUsed, a.used_le⟩

def pushBack (a : SizedArray T N) (t : T) :
    Except Exn (SizedArray T N) :=
  if hFull : a.mUsed = N then
    .error (.stdException (str "std::bad_alloc"))
  else
    .ok
      { mArray := a.mArray.setIfInBounds a.mUsed t
        mUsed := a.mUsed + 1
        used_le :=
          Nat.lt_of_le_of_ne a.used_le hFull }

def popBack (a : SizedArray T N) :
    Except Exn (SizedArray T N) :=
  if a.mUsed = 0 then
    .error (.stdException (str "pop on empty array"))
  else
    .ok
      { mArray := a.mArray
        mUsed := a.mUsed - 1
        used_le :=
          Nat.le_trans (Nat.sub_le _ _) a.used_le }

/- The loop of the assignment. -/
def copyElements (source : Vector T N) :
    List Nat → Vector T N → Vector T N
| [], target => target
| i :: is, target =>
    match source[i]? with
    | some t =>
        copyElements source is (target.setIfInBounds i t)
    | none => copyElements source is target

/-
  The body of `operator=`. Its type promises an array as the
  value of the expression, but there is no `return`.
-/
def assign (a other : SizedArray T N) : SizedArray T N where
  mArray :=
    copyElements other.mArray (List.range other.mUsed)
      a.mArray
  mUsed := other.mUsed
  used_le := other.used_le

------------------------------------------------------------
-- Iterators
------------------------------------------------------------

/- The position of an iterator and of the array's end. -/
def beginPos (_ : SizedArray T N) : Nat := 0

def endPos (a : SizedArray T N) : Nat :=
  a.beginPos + a.mUsed

/-
  Reverse iterators are given by their base, which is one
  more than the position they stand for. `rbegin()` of the
  array has base `N`, and moving on decreases the base.
-/
def rbeginBase (a : SizedArray T N) : Nat :=
  N - N + a.mUsed

def rendBase (_ : SizedArray T N) : Nat := 0

/- What is read from one position up to another one. -/
def forward (a : SizedArray T N) (first last : Nat) :
    List (Option T) :=
  (List.range' first (last - first)).map fun i => a.mArray[i]?

/- What is read from one base down to another one. -/
def backward (a : SizedArray T N) (last : Nat) :
    Nat → List (Option T)
| 0 => []
| base + 1 =>
    if base + 1 = last then []
    else a.mArray[base]? :: a.backward last base

/- `back()`, which is `*rbegin()`. -/
def back (a : SizedArray T N) : Option T :=
  match a.rbeginBase with
  | 0 => none
  | base + 1 => a.mArray[base]?

------------------------------------------------------------
-- Contents
------------------------------------------------------------

/- The list of the used elements. -/
def contents (a : SizedArray T N) : List T :=
  a.mArray.toList.take a.mUsed

@[simp] theorem length_contents (a : SizedArray T N) :
    a.contents.length = a.mUsed := by
  have hUsed := a.used_le
  simp [contents, hUsed]

theorem getElem?_contents (a : SizedArray T N) (i : Nat) :
    a.contents[i]? =
      if i < a.mUsed then a.mArray[i]? else none := by
  unfold contents
  rw [List.getElem?_take, Vector.getElem?_toList]

theorem getElem?_of_used
    (a : SizedArray T N) {i : Nat} (hUsed : i < a.mUsed) :
    a.mArray[i]? = a.contents[i]? := by
  rw [getElem?_contents, if_pos hUsed]

/- What an observer sees is what the list is. -/
structure Agrees (a : SizedArray T N) (list : List T) :
    Prop where
  size : a.size = list.length
  isEmpty : a.isEmpty = true ↔ list = []
  readAt :
    ∀ i,
      a.readAt i =
        match list[i]? with
        | some t => .ok t
        | none =>
            .error (outOfRange "access beyond used elements")
  back : list ≠ [] → a.back = list.getLast?
  forward :
    a.forward a.beginPos a.endPos = list.map some
  backward :
    a.backward a.rendBase a.rbeginBase =
      list.reverse.map some

theorem readAt_eq (a : SizedArray T N) (i : Nat) :
    a.readAt i =
      match a.contents[i]? with
      | some t => .ok t
      | none =>
          .error (outOfRange "access beyond used elements") := by
  unfold readAt
  by_cases hUsed : i < a.mUsed
  · have hBound : i < N :=
      Nat.lt_of_lt_of_le hUsed a.used_le
    have hElem := getElem?_of_used a hUsed
    simp [Nat.not_le.mpr hUsed, ← hElem, hBound]
  · simp [hUsed, Nat.not_lt.mp hUsed]

/- A used element, in the array and in the list. -/
theorem exists_of_used
    (a : SizedArray T N) {i : Nat} (hUsed : i < a.mUsed) :
    ∃ t, a.mArray[i]? = some t ∧
      a.contents[i]? = some t := by
  have hBound : i < N := Nat.lt_of_lt_of_le hUsed a.used_le
  have hElem := getElem?_of_used a hUsed
  refine ⟨a.mArray[i], ?_, ?_⟩
  · simp [hBound]
  · simp [← hElem, hBound]

theorem forward_eq (a : SizedArray T N) :
    a.forward a.beginPos a.endPos = a.contents.map some := by
  apply List.ext_getElem?
  intro i
  simp only [forward, beginPos, endPos, Nat.zero_add,
    Nat.sub_zero, List.getElem?_map]
  by_cases hUsed : i < a.mUsed
  · rcases exists_of_used a hUsed with ⟨t, hArray, hList⟩
    rw [hList]
    simp [hUsed, hArray]
  · have hList : a.contents[i]? = none := by
      simpa using hUsed
    rw [hList]
    simpa using hUsed

/- Going down from a base among the used elements. -/
theorem backward_of_le (a : SizedArray T N) :
    ∀ base, base ≤ a.mUsed →
      a.backward 0 base =
        (a.contents.take base).reverse.map some
| 0, _ => by simp [backward]
| base + 1, hBase => by
    rcases exists_of_used a hBase with ⟨t, hArray, hList⟩
    have hRest :=
      backward_of_le a base (Nat.le_of_succ_le hBase)
    rw [List.take_add_one, hList]
    simp [backward, hRest, hArray]

theorem rbeginBase_eq (a : SizedArray T N) :
    a.rbeginBase = a.mUsed := by
  simp [rbeginBase]

theorem backward_eq (a : SizedArray T N) :
    a.backward a.rendBase a.rbeginBase =
      a.contents.reverse.map some := by
  have hAll : a.contents.take a.mUsed = a.contents := by
    apply List.take_of_length_le
    simp
  have hDown := backward_of_le a a.mUsed (Nat.le_refl _)
  rw [rbeginBase_eq]
  simpa [rendBase, hAll] using hDown

theorem back_eq
    (a : SizedArray T N) (hFilled : a.contents ≠ []) :
    a.back = a.contents.getLast? := by
  have hLength := length_contents a
  have hBase := rbeginBase_eq a
  cases hUsed : a.mUsed with
  | zero =>
      rw [hUsed] at hLength
      exact
        absurd (List.eq_nil_of_length_eq_zero hLength) hFilled
  | succ used =>
      have hLast : used < a.mUsed := by omega
      rw [hUsed] at hBase
      unfold back
      simp [hBase, List.getLast?_eq_getElem?, hUsed,
        getElem?_of_used a hLast]

/- An array agrees with its used elements. -/
theorem agrees_contents (a : SizedArray T N) :
    a.Agrees a.contents where
  size := by simp [size]
  isEmpty := by
    rw [← List.length_eq_zero_iff]
    simp [isEmpty]
  readAt := readAt_eq a
  back := back_eq a
  forward := forward_eq a
  backward := backward_eq a

------------------------------------------------------------
-- Contents after an Operation
------------------------------------------------------------

/- Contents are known from what they have at each index. -/
theorem contents_eq
    {a : SizedArray T N} {list : List T}
    (hLength : list.length = a.mUsed)
    (hElem : ∀ i, i < a.mUsed → a.mArray[i]? = list[i]?) :
    a.contents = list := by
  apply List.ext_getElem?
  intro i
  rw [getElem?_contents]
  split
  · next hUsed => exact hElem i hUsed
  · next hUsed =>
      have hNone : list.length ≤ i := by omega
      exact (List.getElem?_eq_none hNone).symm

theorem contents_create
    (init : T) (size : Nat) (hSize : size ≤ N) :
    (⟨Vector.replicate N init, size, hSize⟩ :
        SizedArray T N).contents =
      List.replicate size init := by
  apply contents_eq
  · simp
  · intro i hUsed
    simp only at hUsed
    have hBound : i < N := by omega
    simp [hUsed, hBound]

theorem contents_clear (a : SizedArray T N) :
    a.clear.contents = [] := by
  apply contents_eq
  · rfl
  · intro i hUsed
    exact absurd hUsed (Nat.not_lt_zero i)

theorem contents_writeIndex
    (a : SizedArray T N) (i : Nat) (t : T) :
    (a.writeIndex i t).contents = a.contents.set i t := by
  apply contents_eq
  · simp [writeIndex]
  · intro j hUsed
    simp only [writeIndex] at hUsed ⊢
    have hBound : j < N :=
      Nat.lt_of_lt_of_le hUsed a.used_le
    have hElem := getElem?_of_used a hUsed
    by_cases hSame : i = j
    · subst hSame
      simp [hUsed, hBound]
    · simp [hSame, hElem]

theorem writeAt_eq
    (a : SizedArray T N) (i : Nat) (t : T) :
    a.writeAt i t =
      if i < a.contents.length then
        .ok (a.writeIndex i t)
      else
        .error
          (outOfRange "access beyond used elements") := by
  unfold writeAt writeIndex
  by_cases hUsed : i < a.mUsed
  · simp [hUsed, Nat.not_le.mpr hUsed]
  · simp [hUsed, Nat.not_lt.mp hUsed]

theorem contents_pushBack
    {a b : SizedArray T N} {t : T}
    (hPush : a.pushBack t = .ok b) :
    a.contents.length < N ∧
      b.contents = a.contents ++ [t] := by
  unfold pushBack at hPush
  split at hPush
  · cases hPush
  · next hFull =>
      have hLess : a.mUsed < N :=
        Nat.lt_of_le_of_ne a.used_le hFull
      cases hPush
      refine ⟨by simpa using hLess, ?_⟩
      apply contents_eq
      · simp
      · intro i hUsed
        simp only at hUsed
        by_cases hLast : i = a.mUsed
        · subst hLast
          simp [hLess]
        · have hOld : i < a.mUsed := by omega
          have hNe : a.mUsed ≠ i :=
            fun hEq => hLast hEq.symm
          have hElem := getElem?_of_used a hOld
          simp [hNe, hElem, List.getElem?_append, hOld]

theorem pushBack_error
    {a : SizedArray T N} {t : T} {e : Exn}
    (hPush : a.pushBack t = .error e) :
    a.contents.length = N ∧
      e = .stdException (str "std::bad_alloc") := by
  unfold pushBack at hPush
  split at hPush
  · next hFull =>
      cases hPush
      exact ⟨by simpa using hFull, rfl⟩
  · cases hPush

theorem contents_popBack
    {a b : SizedArray T N} (hPop : a.popBack = .ok b) :
    a.contents ≠ [] ∧ b.contents = a.contents.dropLast := by
  unfold popBack at hPop
  split at hPop
  · cases hPop
  · next hSome =>
      cases hPop
      constructor
      · intro hNil
        have hLength := length_contents a
        rw [hNil] at hLength
        exact hSome hLength.symm
      · apply contents_eq
        · simp
        · intro i hUsed
          simp only at hUsed
          have hOld : i < a.mUsed := by omega
          have hElem := getElem?_of_used a hOld
          simp [hUsed, hElem]

theorem popBack_error
    {a : SizedArray T N} {e : Exn}
    (hPop : a.popBack = .error e) :
    a.contents = [] ∧
      e = .stdException (str "pop on empty array") := by
  unfold popBack at hPop
  split at hPop
  · next hNone =>
      cases hPop
      refine ⟨?_, rfl⟩
      apply List.eq_nil_of_length_eq_zero
      simpa using hNone
  · cases hPop

/- The loop of the assignment copies what it is told. -/
theorem getElem?_copyElements (source : Vector T N) :
    ∀ (is : List Nat) (target : Vector T N) (i : Nat),
      (copyElements source is target)[i]? =
        if i ∈ is then source[i]? else target[i]?
| [], target, i => by simp [copyElements]
| j :: is, target, i => by
    unfold copyElements
    cases hSource : source[j]? with
    | none =>
        have hRest := getElem?_copyElements source is target i
        simp only [hRest, List.mem_cons]
        by_cases hSame : i = j
        · subst hSame
          have hOut : N ≤ i := by simpa using hSource
          simp [hOut]
        · simp [hSame]
    | some t =>
        have hRest :=
          getElem?_copyElements source is
            (target.setIfInBounds j t) i
        have hBound : j < N := by
          by_contra hOut
          simp [hOut] at hSource
        simp only [hRest, List.mem_cons]
        by_cases hSame : i = j
        · subst hSame
          have hHead : source[i] = t := by
            simpa [hBound] using hSource
          simp [hBound, hHead]
        · have hNe : j ≠ i := fun hEq => hSame hEq.symm
          simp [hSame, hNe]

theorem contents_assign (a other : SizedArray T N) :
    (a.assign other).contents = other.contents := by
  apply contents_eq
  · simp [assign]
  · intro i hUsed
    simp only [assign] at hUsed ⊢
    rw [getElem?_copyElements, ← getElem?_of_used other hUsed]
    simp [hUsed]

------------------------------------------------------------
-- Operations on Arrays
------------------------------------------------------------

/-
  `setAt` and `setIndex` assign to the element that `at` and
  `operator[]` give.
-/
inductive Op (ι T : Type) where
| construct (h : ι) (init : T) (size : Nat)
| copy (h k : ι)
| pushBack (h : ι) (t : T)
| popBack (h : ι)
| clear (h : ι)
| assign (h k : ι)
| readAt (h : ι) (i : Nat)
| setAt (h : ι) (i : Nat) (t : T)
| setIndex (h : ι) (i : Nat) (t : T)

/-
  What the caller of an operation gets. The end of a
  function without the `return` it needs is `undefined`.
-/
inductive Result (T : Type) where
| done
| value (t : T)
| array (list : List T)
| thrown (e : Exn)
| undefined

/- The arrays of a program. -/
abbrev Arrays (ι T : Type) (N : Nat) : Type :=
  ι → Option (SizedArray T N)

section Programs

variable {ι : Type} [DecidableEq ι]

/- An operation that changes the array at `h` or throws. -/
def changeAt
    (h : ι) (objs : Arrays ι T N)
    (op : SizedArray T N → Except Exn (SizedArray T N)) :
    Arrays ι T N × Result T :=
  match objs h with
  | none => (objs, .undefined)
  | some a =>
      match op a with
      | .ok b => (Function.update objs h (some b), .done)
      | .error e => (objs, .thrown e)

def perform (objs : Arrays ι T N) :
    Op ι T → Arrays ι T N × Result T
| .construct h init size =>
    match create init size with
    | .ok a => (Function.update objs h (some a), .done)
    | .error e => (objs, .thrown e)
| .copy h k => (Function.update objs h (objs k), .done)
| .pushBack h t => changeAt h objs fun a => a.pushBack t
| .popBack h => changeAt h objs fun a => a.popBack
| .clear h => changeAt h objs fun a => .ok a.clear
| .assign h k =>
    match objs h, objs k with
    | some a, some b =>
        (Function.update objs h (some (a.assign b)),
          .undefined)
    | _, _ => (objs, .undefined)
| .readAt h i =>
    match objs h with
    | none => (objs, .undefined)
    | some a =>
        match a.readAt i with
        | .ok t => (objs, .value t)
        | .error e => (objs, .thrown e)
| .setAt h i t => changeAt h objs fun a => a.writeAt i t
| .setIndex h i t =>
    changeAt h objs fun a => .ok (a.writeIndex i t)

/-
  Constructors make an array at a free place, everything
  else works on arrays that are there, and `operator[]` does
  not leave the storage.
-/
def Op.Legal (objs : Arrays ι T N) : Op ι T → Prop
| .construct h _ _ => objs h = none
| .copy h k => objs h = none ∧ objs k ≠ none
| .assign h k => objs h ≠ none ∧ objs k ≠ none
| .setIndex h i _ => objs h ≠ none ∧ i < N
| .pushBack h _ => objs h ≠ none
| .popBack h => objs h ≠ none
| .clear h => objs h ≠ none
| .readAt h _ => objs h ≠ none
| .setAt h _ _ => objs h ≠ none

def Op.IsAssign : Op ι T → Prop
| .assign _ _ => True
| _ => False

------------------------------------------------------------
-- Bounded Lists
------------------------------------------------------------

namespace Spec

/- The lists that the arrays of a program stand for. -/
abbrev Lists (ι T : Type) : Type := ι → Option (List T)

/- What an operation does with lists of at most `N`. -/
def perform (N : Nat) (lists : Lists ι T) :
    Op ι T → Lists ι T × Result T
| .construct h init size =>
    if size ≤ N then
      (Function.update lists h
        (some (List.replicate size init)), .done)
    else
      (lists, .thrown (outOfRange "excess array init size"))
| .copy h k => (Function.update lists h (lists k), .done)
| .pushBack h t =>
    match lists h with
    | none => (lists, .undefined)
    | some list =>
        if list.length = N then
          (lists,
            .thrown (.stdException (str "std::bad_alloc")))
        else
          (Function.update lists h (some (list ++ [t])),
            .done)
| .popBack h =>
    match lists h with
    | none => (lists, .undefined)
    | some [] =>
        (lists,
          .thrown
            (.stdException (str "pop on empty array")))
    | some (t :: list) =>
        (Function.update lists h
          (some (t :: list).dropLast), .done)
| .clear h =>
    match lists h with
    | none => (lists, .undefined)
    | some _ => (Function.update lists h (some []), .done)
| .assign h k =>
    match lists h, lists k with
    | some _, some list =>
        (Function.update lists h (some list), .array list)
    | _, _ => (lists, .undefined)
| .readAt h i =>
    match lists h with
    | none => (lists, .undefined)
    | some list =>
        match list[i]? with
        | some t => (lists, .value t)
        | none =>
            (lists,
              .thrown
                (outOfRange "access beyond used elements"))
| .setAt h i t =>
    match lists h with
    | none => (lists, .undefined)
    | some list =>
        if i < list.length then
          (Function.update lists h (some (list.set i t)),
            .done)
        else
          (lists,
            .thrown
              (outOfRange "access beyond used elements"))
| .setIndex h i t =>
    match lists h with
    | none => (lists, .undefined)
    | some list =>
        (Function.update lists h (some (list.set i t)),
          .done)

end Spec

/- The list of every array. -/
def lists (objs : Arrays ι T N) : Spec.Lists ι T :=
  fun h => (objs h).map contents

/-
  An operation took the arrays to new ones as it takes their
  lists, its caller gets the same, and every array looks
  like its list.
-/
structure Refines
    (objs : Arrays ι T N) (op : Op ι T)
    (objs' : Arrays ι T N) : Prop where
  lists : lists objs' = (Spec.perform N (lists objs) op).1
  result :
    (perform objs op).2 =
      (Spec.perform N (SizedArray.lists objs) op).2
  agrees : ∀ h a, objs' h = some a → a.Agrees a.contents

------------------------------------------------------------
-- Refinement
------------------------------------------------------------

@[simp] theorem lists_update
    (objs : Arrays ι T N) (h : ι)
    (obj : Option (SizedArray T N)) :
    lists (Function.update objs h obj) =
      Function.update (lists objs) h (obj.map contents) := by
  funext k
  by_cases hk : k = h
  · subst hk
    simp [lists]
  · simp [lists, hk]

/- An operation in terms of lists, with its result. -/
def performed (objs : Arrays ι T N) (op : Op ι T) :
    Spec.Lists ι T × Result T :=
  (lists (perform objs op).1, (perform objs op).2)

theorem performed_construct
    (objs : Arrays ι T N) (h : ι) (init : T) (size : Nat) :
    performed objs (.construct h init size) =
      Spec.perform N (lists objs)
        (.construct h init size) := by
  unfold performed
  simp only [perform, Spec.perform, create]
  by_cases hSize : size ≤ N
  · simp [hSize, contents_create]
  · simp [hSize]

theorem performed_copy
    (objs : Arrays ι T N) (h k : ι) :
    performed objs (.copy h k) =
      Spec.perform N (lists objs) (.copy h k) := by
  simp [performed, perform, Spec.perform, lists]

theorem performed_pushBack
    {objs : Arrays ι T N} {h : ι} {a : SizedArray T N}
    (hObj : objs h = some a) (t : T) :
    performed objs (.pushBack h t) =
      Spec.perform N (lists objs) (.pushBack h t) := by
  have hList : lists objs h = some a.contents := by
    simp [lists, hObj]
  simp only [performed, perform, changeAt, Spec.perform,
    hObj, hList]
  cases hPush : a.pushBack t with
  | ok b =>
      rcases contents_pushBack hPush with ⟨hLess, hAfter⟩
      rw [if_neg (Nat.ne_of_lt hLess), ← hAfter]
      simp
  | error e =>
      rcases pushBack_error hPush with ⟨hFull, hError⟩
      rw [if_pos hFull, hError]

theorem performed_popBack
    {objs : Arrays ι T N} {h : ι} {a : SizedArray T N}
    (hObj : objs h = some a) :
    performed objs (.popBack h) =
      Spec.perform N (lists objs) (.popBack h) := by
  have hList : lists objs h = some a.contents := by
    simp [lists, hObj]
  simp only [performed, perform, changeAt, Spec.perform,
    hObj, hList]
  cases hPop : a.popBack with
  | ok b =>
      rcases contents_popBack hPop with ⟨hSome, hAfter⟩
      cases hContents : a.contents with
      | nil => exact absurd hContents hSome
      | cons t list =>
          rw [hContents] at hAfter
          simp [hAfter]
  | error e =>
      rcases popBack_error hPop with ⟨hNone, hError⟩
      simp [hNone, hError]

theorem performed_readAt
    {objs : Arrays ι T N} {h : ι} {a : SizedArray T N}
    (hObj : objs h = some a) (i : Nat) :
    performed objs (.readAt h i) =
      Spec.perform N (lists objs) (.readAt h i) := by
  have hList : lists objs h = some a.contents := by
    simp [lists, hObj]
  simp only [performed, perform, Spec.perform, hObj, hList,
    readAt_eq]
  cases a.contents[i]? <;> rfl

theorem performed_setAt
    {objs : Arrays ι T N} {h : ι} {a : SizedArray T N}
    (hObj : objs h = some a) (i : Nat) (t : T) :
    performed objs (.setAt h i t) =
      Spec.perform N (lists objs) (.setAt h i t) := by
  have hList : lists objs h = some a.contents := by
    simp [lists, hObj]
  simp only [performed, perform, changeAt, Spec.perform,
    hObj, hList, writeAt_eq]
  by_cases hUsed : i < a.contents.length
  · have hLess : i < a.mUsed := by simpa using hUsed
    simp [hLess, contents_writeIndex]
  · have hBeyond : ¬ i < a.mUsed := by simpa using hUsed
    simp [hBeyond]

/-
  Every operation but the assignment does on the arrays what
  it does on the lists, and reports the same.
-/
theorem performed_eq
    {objs : Arrays ι T N} {op : Op ι T}
    (hLegal : op.Legal objs)
    (hAssign : ¬ op.IsAssign) :
    performed objs op = Spec.perform N (lists objs) op := by
  cases op with
  | construct h init size =>
      exact performed_construct objs h init size
  | copy h k => exact performed_copy objs h k
  | pushBack h t =>
      rcases Option.ne_none_iff_exists'.mp hLegal with
        ⟨a, hObj⟩
      exact performed_pushBack hObj t
  | popBack h =>
      rcases Option.ne_none_iff_exists'.mp hLegal with
        ⟨a, hObj⟩
      exact performed_popBack hObj
  | clear h =>
      rcases Option.ne_none_iff_exists'.mp hLegal with
        ⟨a, hObj⟩
      have hList : lists objs h = some a.contents := by
        simp [lists, hObj]
      simp [performed, perform, changeAt, Spec.perform, hObj,
        hList, contents_clear]
  | assign h k => exact absurd trivial hAssign
  | readAt h i =>
      rcases Option.ne_none_iff_exists'.mp hLegal with
        ⟨a, hObj⟩
      exact performed_readAt hObj i
  | setAt h i t =>
      rcases Option.ne_none_iff_exists'.mp hLegal with
        ⟨a, hObj⟩
      exact performed_setAt hObj i t
  | setIndex h i t =>
      rcases Option.ne_none_iff_exists'.mp hLegal.1 with
        ⟨a, hObj⟩
      have hList : lists objs h = some a.contents := by
        simp [lists, hObj]
      simp [performed, perform, changeAt, Spec.perform, hObj,
        hList, contents_writeIndex]

/-
  The elements are assigned as they should be; what the
  assignment does not do is to yield the array.
-/
theorem performed_assign
    {objs : Arrays ι T N} {h k : ι}
    (hLegal : (Op.assign (T := T) h k).Legal objs) :
    (performed objs (.assign h k)).1 =
        (Spec.perform N (lists objs) (.assign h k)).1 ∧
      (performed objs (.assign h k)).2 ≠
        (Spec.perform N (lists objs) (.assign h k)).2 := by
  rcases Option.ne_none_iff_exists'.mp hLegal.1 with
    ⟨a, hObj⟩
  rcases Option.ne_none_iff_exists'.mp hLegal.2 with
    ⟨b, hOther⟩
  have hList : lists objs h = some a.contents := by
    simp [lists, hObj]
  have hOtherList : lists objs k = some b.contents := by
    simp [lists, hOther]
  simp [performed, perform, Spec.perform, hObj, hOther,
    hList, hOtherList, contents_assign]

------------------------------------------------------------
-- Runs
------------------------------------------------------------

/- A program that works on arrays. -/
def machine :
    Machine (Arrays ι T N) (Op ι T) where
  legal objs op := op.Legal objs
  step objs op := (perform objs op).1

/-
  From no arrays on, the arrays and what their users see are
  those of the bounded lists exactly as long as no array is
  assigned to.
-/
theorem refines_along_iff
    (ops : List (Op ι T))
    (hLegal :
      machine.Legal (fun _ => none : Arrays ι T N) ops) :
    machine.Along Refines
        (fun _ => none : Arrays ι T N) ops ↔
      machine.Along (fun _ op _ => ¬ op.IsAssign)
        (fun _ => none : Arrays ι T N) ops := by
  refine
    Machine.along_iff_of_invariant (fun _ => True)
      ?_ ?_ ops _ trivial hLegal
  · intro objs op _ hOp hAssign
    have hEq := performed_eq hOp hAssign
    refine ⟨trivial, ?_⟩
    exact
      { lists := congrArg Prod.fst hEq
        result := congrArg Prod.snd hEq
        agrees := fun _ a _ => a.agrees_contents }
  · intro objs op _ hOp hAssign hRefines
    cases op with
    | assign h k =>
        exact (performed_assign hOp).2 hRefines.result
    | _ => exact hAssign id

end Programs

/-
  Two arrays for two numbers: one is filled beyond its
  capacity, the other one is emptied once too often.
-/
theorem refines_along_full_and_empty :
    machine.Along Refines
      (fun _ => none : Arrays Bool Nat 2)
      [.construct true 7 1, .copy false true,
        .pushBack true 8, .pushBack true 9,
        .popBack false, .popBack false, .readAt true 1] := by
  refine
    (refines_along_iff
      [.construct true 7 1, .copy false true,
        .pushBack true 8, .pushBack true 9,
        .popBack false, .popBack false,
        .readAt true 1] ?_).mpr ?_
  · simp [machine, Op.Legal, perform, changeAt, create,
      pushBack, popBack]
  · simp [machine, Op.IsAssign]

/-
  An array is assigned to another one. The elements arrive,
  but the expression has no value.
-/
theorem assign_yields_nothing :
    machine.Legal (fun _ => none : Arrays Bool Nat 2)
        [.construct true 7 1, .construct false 8 2,
          .assign true false] ∧
      ¬ machine.Along Refines
        (fun _ => none : Arrays Bool Nat 2)
        [.construct true 7 1, .construct false 8 2,
          .assign true false] := by
  constructor
  · simp [machine, Op.Legal, perform, create]
  · rintro ⟨-, -, hRefines, -⟩
    have hResult := hRefines.result
    simp [machine, perform, Spec.perform, create,
      SizedArray.lists] at hResult

end SizedArray

end Cosmos
