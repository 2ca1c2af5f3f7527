import LibCosmos.Core.Types
import LibCosmos.Foundation.Terminated

/-
  Directory entries as the kernel writes them and as they
  are read (`include/fs/DirEntry.hxx`).

  A read outside of the record gives no result.

  Main declarations:
    * `DirEntry.nameLength`, `DirEntry.view`,
      `DirEntry.isDotEntry`
    * `DirEntry.Stored`
    * `DirEntry.nameLength_stored`
-/

namespace Cosmos

/-
  A `struct dirent`: the length of its record and the bytes
  of the record from `d_name` on.
-/
structure DirEntry where
  dReclen : UInt16
  dName : List Byte
deriving DecidableEq, Repr

namespace DirEntry

/- `offsetof(struct dirent, d_name)` on 64-bit systems. -/
def nameOffset : UInt64 := 19

section Code

variable (entry : DirEntry)

/- `std::strlen` of the name. -/
def strlen : Option Nat :=
  (Terminated.scan 0 entry.dName).map List.length

/- Where `nameLength` starts to look for the terminator. -/
def searchStart : UInt64 :=
  let len := entry.dReclen.toUInt64 - nameOffset - 1
  if len < 8 then 0 else len - 8

/- `DirEntry::nameLength`. -/
def nameLength : Option Nat :=
  match
    Terminated.search 0 entry.dName 8
      entry.searchStart.toNat with
  | none => none
  | some (some length) => some length
  | some none => entry.strlen

/- `DirEntry::view`. -/
def view : Option Str := do
  let length ← entry.nameLength
  if length ≤ entry.dName.length then
    some (entry.dName.take length)
  else none

/- `DirEntry::isDotEntry`. -/
def isDotEntry : Option Bool := do
  let dot : Byte := 46
  let first ← entry.dName[0]?
  if first ≠ dot then some false
  else
    let second ← entry.dName[1]?
    if second = 0 then some true
    else if second ≠ dot then some false
    else
      let third ← entry.dName[2]?
      some (third = 0)

end Code

------------------------------------------------------------
-- Records of the Kernel
------------------------------------------------------------

/-
  The kernel stored this name: with a terminator, and with
  anything behind it up to a multiple of 8 bytes.
-/
structure Stored (entry : DirEntry) (name : Str) : Prop where
  nonempty : 1 ≤ name.length
  short : name.length ≤ 255
  free : 0 ∉ name
  bytes : ∃ padding, entry.dName = name ++ 0 :: padding
  reclen :
    entry.dReclen.toNat =
      (nameOffset.toNat + name.length + 1 + 7) / 8 * 8
  size :
    nameOffset.toNat + entry.dName.length =
      entry.dReclen.toNat

theorem toNat_nameOffset : nameOffset.toNat = 19 := rfl

/-
  The start is not behind the terminator, as the padding is
  shorter than 8 bytes. If there is none of it, then the
  terminator is the byte behind the range.
-/
theorem searchStart_le
    {entry : DirEntry} {name : Str}
    (hStored : entry.Stored name) :
    entry.searchStart.toNat ≤ name.length ∧
      name.length ≤ entry.searchStart.toNat + 8 := by
  have hReclen := hStored.reclen
  have hShort := hStored.short
  have hNonempty := hStored.nonempty
  rw [toNat_nameOffset] at hReclen
  have hLen :
      (entry.dReclen.toUInt64 - nameOffset - 1).toNat =
        entry.dReclen.toNat - 20 := by
    have hWide :
        entry.dReclen.toUInt64.toNat =
          entry.dReclen.toNat := rfl
    have hOffset :
        (entry.dReclen.toUInt64 - nameOffset).toNat =
          entry.dReclen.toNat - 19 := by
      rw [UInt64.toNat_sub_of_le]
      · rfl
      · rw [UInt64.le_iff_toNat_le, hWide,
          toNat_nameOffset]
        omega
    rw [UInt64.toNat_sub_of_le, hOffset]
    · rfl
    · rw [UInt64.le_iff_toNat_le, hOffset]
      have hOne : (1 : UInt64).toNat = 1 := rfl
      omega
  unfold searchStart
  by_cases hFew :
      entry.dReclen.toUInt64 - nameOffset - 1 < 8
  · rw [if_pos hFew]
    rw [UInt64.lt_iff_toNat_lt, hLen] at hFew
    have hEight : (8 : UInt64).toNat = 8 := rfl
    have hZero : (0 : UInt64).toNat = 0 := rfl
    omega
  · rw [if_neg hFew]
    rw [UInt64.lt_iff_toNat_lt, hLen] at hFew
    have hEight : (8 : UInt64).toNat = 8 := rfl
    have hStart :
        (entry.dReclen.toUInt64 - nameOffset - 1 -
          8).toNat = entry.dReclen.toNat - 28 := by
      rw [UInt64.toNat_sub_of_le, hLen, hEight]
      · omega
      · rw [UInt64.le_iff_toNat_le, hLen]
        omega
    rw [hStart]
    omega

theorem strlen_stored
    {entry : DirEntry} {name : Str}
    (hStored : entry.Stored name) :
    entry.strlen = some name.length := by
  rcases hStored.bytes with ⟨padding, hBytes⟩
  unfold strlen
  rw [hBytes,
    Terminated.scan_append_cons 0 hStored.free padding]
  rfl

/-
  The length of the name is found without a read outside of
  the record, whatever the padding is.
-/
theorem nameLength_stored
    {entry : DirEntry} {name : Str}
    (hStored : entry.Stored name) :
    entry.nameLength = entry.strlen ∧
      entry.nameLength = some name.length := by
  have hStrlen := strlen_stored hStored
  rcases hStored.bytes with ⟨padding, hBytes⟩
  rcases searchStart_le hStored with ⟨hStart, -⟩
  have hSearch :=
    Terminated.search_eq 0 hStored.free padding 8
      entry.searchStart.toNat hStart
  rw [← hBytes] at hSearch
  have hLength : entry.nameLength = some name.length := by
    unfold nameLength
    rw [hSearch]
    by_cases hInside :
        name.length < entry.searchStart.toNat + 8
    · simp only [if_pos hInside]
    · simp only [if_neg hInside]
      exact hStrlen
  exact ⟨hLength.trans hStrlen.symm, hLength⟩

/- Here the terminator is right behind the range. -/
theorem nameLength_stored_twelve :
    (DirEntry.mk 32 (str "abcdefghijkl" ++ [0])).nameLength =
      some 12 := by
  have hStored :
      (DirEntry.mk 32 (str "abcdefghijkl" ++ [0])).Stored
        (str "abcdefghijkl") :=
    { nonempty := by decide
      short := by decide
      free := by decide
      bytes := ⟨[], rfl⟩
      reclen := rfl
      size := rfl }
  exact (nameLength_stored hStored).2

/- The view is the name. -/
theorem view_stored
    {entry : DirEntry} {name : Str}
    (hStored : entry.Stored name) :
    entry.view = some name := by
  rcases hStored.bytes with ⟨padding, hBytes⟩
  have hLe : name.length ≤ entry.dName.length := by
    rw [hBytes, List.length_append]
    omega
  have hTake : entry.dName.take name.length = name := by
    rw [hBytes]
    exact List.take_left
  unfold view
  rw [(nameLength_stored hStored).2]
  simp only [Option.bind_eq_bind, Option.bind_some,
    if_pos hLe, hTake]

/- Just the two entries that every directory has. -/
theorem isDotEntry_stored
    {entry : DirEntry} {name : Str}
    (hStored : entry.Stored name) :
    entry.isDotEntry =
      some (decide (name = [46] ∨ name = [46, 46])) := by
  rcases hStored.bytes with ⟨padding, hBytes⟩
  have hFree := hStored.free
  unfold isDotEntry
  rw [hBytes]
  rcases name with _ | ⟨first, _ | ⟨second, rest⟩⟩
  · exact absurd hStored.nonempty (by simp)
  · by_cases hFirst : first = 46
    · simp [hFirst]
    · simp [hFirst]
  · have hSecond : second ≠ 0 := by
      rintro rfl
      exact hFree (by simp)
    by_cases hFirst : first = 46
    · by_cases hDot : second = 46
      · rcases rest with _ | ⟨third, rest⟩
        · simp [hFirst, hDot]
        · have hThird : third ≠ 0 := by
            rintro rfl
            exact hFree (by simp)
          simp [hFirst, hDot, hThird]
      · simp [hFirst, hSecond, hDot]
    · simp [hFirst]

end DirEntry

end Cosmos
