import LibCosmos.Proc.AuxVector

/-
  What a lookup in the auxiliary vector finds, and what the
  map of all entries holds
  (`src/proc/AuxVector.cxx`).

  Main declarations:
    * `AuxVector.entries`, `AuxVector.visible`
    * `AuxVector.Views`, `AuxVector.Agrees`
    * `AuxVector.iterate_eq`
    * `AuxVector.lookupValue_agrees_iff`
-/

namespace Cosmos

open Blocks

namespace AuxVector

------------------------------------------------------------
-- Entries of a Buffer
------------------------------------------------------------

/- The 16 bytes of one entry. -/
def decodeEntry (raw : List Byte) : RawEntry where
  type := (decodeLong (raw.take 8)).toNat
  value := decodeLong (raw.drop 8)

/- All complete entries. -/
def entries (bytes : List Byte) : List RawEntry :=
  (List.range (bytes.length / RawEntry.size)).map fun num =>
    decodeEntry
      ((bytes.drop (num * RawEntry.size)).take RawEntry.size)

/- The entries in front of the terminator. -/
def visible (bytes : List Byte) : List RawEntry :=
  (entries bytes).takeWhile fun entry => !entry.isNull

/- The bytes of the complete entries. -/
def completePart (bytes : List Byte) : List Byte :=
  bytes.take
    (bytes.length / RawEntry.size * RawEntry.size)

/-
  The object looks at these bytes. Only the complete entries
  have to be in memory, and anything can be behind them.
-/
structure Views
    (memory : Memory) (this : AuxVector)
    (bytes : List Byte) : Prop where
  size : this.mView.size = bytes.length
  held :
    RawEntry.size ≤ bytes.length →
      ∃ b rest, this.mView.block = some b ∧
        memory b = some (completePart bytes ++ rest)

/- Every complete entry can be read. -/
theorem readEntry_of_views
    {memory : Memory} {this : AuxVector}
    {bytes : List Byte} (hViews : Views memory this bytes)
    {num : Nat} (hNum : num < bytes.length / RawEntry.size) :
    readEntry memory this.mView num =
      (entries bytes)[num]? := by
  have hRoom :
      num * RawEntry.size + RawEntry.size ≤
        bytes.length / RawEntry.size * RawEntry.size := by
    rw [← Nat.succ_mul]
    exact Nat.mul_le_mul_right _ hNum
  have hWhole :
      bytes.length / RawEntry.size * RawEntry.size ≤
        bytes.length :=
    Nat.div_mul_le_self _ _
  have hLarge : RawEntry.size ≤ bytes.length := by omega
  rcases hViews.held hLarge with
    ⟨b, rest, hBlock, hBytes⟩
  have hLength :
      (completePart bytes).length =
        bytes.length / RawEntry.size * RawEntry.size := by
    unfold completePart
    rw [List.length_take, Nat.min_eq_left hWhole]
  have hRaw :
      ((completePart bytes ++ rest).drop
          (num * RawEntry.size)).take RawEntry.size =
        (bytes.drop (num * RawEntry.size)).take
          RawEntry.size := by
    rw [List.drop_append_of_le_length (by omega),
      List.take_append_of_le_length
        (by rw [List.length_drop]; omega)]
    unfold completePart
    rw [List.drop_take, List.take_take,
      Nat.min_eq_left (by omega)]
  have hFull :
      ((bytes.drop (num * RawEntry.size)).take
        RawEntry.size).length = RawEntry.size := by
    rw [List.length_take, List.length_drop]
    omega
  have hEntry :
      (entries bytes)[num]? =
        some
          (decodeEntry
            ((bytes.drop (num * RawEntry.size)).take
              RawEntry.size)) := by
    unfold entries
    rw [List.getElem?_map, List.getElem?_range hNum]
    rfl
  unfold readEntry
  simp only [hBlock, hBytes, hRaw, hFull, if_true, hEntry]
  rfl

------------------------------------------------------------
-- The Iteration
------------------------------------------------------------

section Iteration

variable {σ : Type}

/- The callback runs until it returns `false`. -/
def walk
    (cb : RawEntry → σ → Option (Bool × σ)) :
    List RawEntry → σ → Option σ
| [], ret => some ret
| entry :: rest, ret =>
    match cb entry ret with
    | none => none
    | some (false, ret') => some ret'
    | some (true, ret') => walk cb rest ret'

/- The loop reads no more than it has to. -/
theorem iterateLoop_eq
    {memory : Memory} {buffer : Span} {es : List RawEntry}
    (cb : RawEntry → σ → Option (Bool × σ))
    (hRead :
      ∀ num, num < es.length →
        readEntry memory buffer num = es[num]?) :
    ∀ (rest num : Nat) (ret : σ),
      num + rest = es.length →
      iterateLoop memory buffer cb rest num ret =
        walk cb
          ((es.drop num).takeWhile fun e => !e.isNull) ret
| 0, num, ret, hEnd => by
    have hNone : es.drop num = [] :=
      List.drop_eq_nil_of_le (by omega)
    rw [hNone]
    rfl
| rest + 1, num, ret, hEnd => by
    have hNum : num < es.length := by omega
    have hDrop :
        es.drop num = es[num] :: es.drop (num + 1) :=
      List.drop_eq_getElem_cons hNum
    unfold iterateLoop
    rw [hRead num hNum, List.getElem?_eq_getElem hNum,
      hDrop]
    simp only []
    by_cases hNull : es[num].isNull = true
    · rw [if_pos hNull,
        List.takeWhile_cons_of_neg (by simp [hNull])]
      rfl
    · rw [if_neg hNull,
        List.takeWhile_cons_of_pos (by simp [hNull])]
      rcases hCb : cb es[num] ret with _ | ⟨_ | _, ret'⟩
      · simp only [walk, hCb]
      · simp only [walk, hCb]
      · simp only [walk, hCb]
        exact
          iterateLoop_eq cb hRead rest (num + 1) ret'
            (by omega)

theorem iterate_eq
    {memory : Memory} {this : AuxVector}
    {bytes : List Byte} (hViews : Views memory this bytes)
    (cb : RawEntry → σ → Option (Bool × σ)) (ret : σ) :
    iterate memory this.mView cb ret =
      walk cb (visible bytes) ret := by
  have hLength :
      (entries bytes).length =
        bytes.length / RawEntry.size := by
    unfold entries
    rw [List.length_map, List.length_range]
  have hRead : ∀ num, num < (entries bytes).length →
      readEntry memory this.mView num =
        (entries bytes)[num]? := by
    intro num hNum
    rw [hLength] at hNum
    exact readEntry_of_views hViews hNum
  unfold iterate
  simp only [hViews.size]
  refine iterateLoop_eq cb hRead _ 0 ret ?_
  rw [hLength, Nat.zero_add]

/-
  A callback that stops at an entry looks into the first one
  only.
-/
theorem walk_find
    {δ : Type} (p : RawEntry → Prop) [DecidablePred p]
    (f : RawEntry → Option δ) :
    ∀ es : List RawEntry,
      walk
          (fun e ret =>
            if p e then (f e).map fun d => (false, some d)
            else some (true, ret))
          es none =
        match es.find? fun e => p e with
        | none => some none
        | some e => (f e).map some
| [] => rfl
| e :: es => by
    unfold walk
    by_cases hHere : p e
    · rcases hData : f e with _ | d
      · simp [hHere, hData]
      · simp [hHere, hData]
    · simp [hHere, walk_find p f es]

/- A callback that never stops is a fold if it never fails. -/
theorem walk_foldl
    {δ : Type} {f : RawEntry → Option δ} {data : RawEntry → δ}
    (g : σ → RawEntry → δ → σ) :
    ∀ (es : List RawEntry) (ret : σ),
      (∀ e ∈ es, f e = some (data e)) →
      walk
          (fun e ret =>
            (f e).map fun d => (true, g ret e d))
          es ret =
        some (es.foldl (fun ret e => g ret e (data e)) ret)
| [], _, _ => rfl
| e :: es, ret, hData => by
    unfold walk
    rw [hData e List.mem_cons_self]
    exact
      walk_foldl g es (g ret e (data e)) fun e' hMem =>
        hData e' (List.mem_cons_of_mem e hMem)

/- All entries are looked into for a result. -/
theorem data_of_walk
    {δ : Type} {f : RawEntry → Option δ}
    (g : σ → RawEntry → δ → σ) :
    ∀ (es : List RawEntry) (ret : σ),
      walk
          (fun e ret =>
            (f e).map fun d => (true, g ret e d))
          es ret ≠
        none →
      ∀ e ∈ es, f e ≠ none
| [], _, _ => nofun
| e :: es, ret, hWalk => by
    intro e' hMem
    unfold walk at hWalk
    rcases hData : f e with _ | d
    · rw [hData] at hWalk
      exact absurd rfl hWalk
    · rw [hData] at hWalk
      rcases List.mem_cons.mp hMem with hHere | hLater
      · rw [hHere, hData]
        exact Option.some_ne_none d
      · exact data_of_walk g es _ hWalk e' hLater

end Iteration

------------------------------------------------------------
-- Lookups
------------------------------------------------------------

/- The first entry of a type in front of the terminator. -/
def firstOf (bytes : List Byte) (type : Nat) :
    Option RawEntry :=
  (visible bytes).find? fun entry => entry.type = type

/-
  Both functions have a result for every type, a lookup and
  the map agree on it, and both have the first entry of that
  type in front of the terminator.
-/
def Agrees
    (strlen : Strings) (memory : Memory) (this : AuxVector)
    (bytes : List Byte) : Prop :=
  ∃ map,
    asMap strlen memory this = some map ∧
      KeyMap.Ascending map ∧
      ∀ type,
        lookupValue strlen memory this type =
            some (KeyMap.find type map) ∧
          KeyMap.find type map =
            (firstOf bytes type).bind (makeData strlen)

section Lookups

variable
    {strlen : Strings} {memory : Memory} {this : AuxVector}
    {bytes : List Byte}

/- There is a map only if all strings can be read. -/
theorem readable_of_asMap
    (hViews : Views memory this bytes)
    (hMap : asMap strlen memory this ≠ none) :
    ∀ entry ∈ visible bytes, Readable strlen entry := by
  intro entry hMem
  unfold asMap at hMap
  rw [iterate_eq hViews] at hMap
  have hData :=
    data_of_walk
      (fun ret e d =>
        (KeyMap.insert e.type d ret).getD ret)
      (visible bytes) [] hMap entry hMem
  by_contra hNot
  exact hData ((makeData_eq_none_iff strlen entry).mpr hNot)

/- The map holds the first entry of every type. -/
theorem asMap_of_readable
    (hViews : Views memory this bytes)
    (hReadable :
      ∀ entry ∈ visible bytes, Readable strlen entry) :
    ∃ map,
      asMap strlen memory this = some map ∧
        KeyMap.Ascending map ∧
        ∀ type,
          KeyMap.find type map =
            (firstOf bytes type).bind (makeData strlen) := by
  let data : RawEntry → Data := fun entry =>
    (makeData strlen entry).getD (.number 0)
  have hData :
      ∀ entry ∈ visible bytes,
        makeData strlen entry = some (data entry) := by
    intro entry hMem
    rcases hMake : makeData strlen entry with _ | d
    · have hNot := (makeData_eq_none_iff strlen entry).mp hMake
      exact absurd (hReadable entry hMem) hNot
    · simp only [data, hMake, Option.getD_some]
  have hMap :
      asMap strlen memory this =
        some
          ((visible bytes).foldl
            (fun m e =>
              (KeyMap.insert e.type (data e) m).getD m)
            []) := by
    unfold asMap
    rw [iterate_eq hViews]
    exact
      walk_foldl
        (fun ret e d =>
          (KeyMap.insert e.type d ret).getD ret)
        (visible bytes) [] hData
  have hEmpty :
      KeyMap.Ascending ([] : List (Nat × Data)) :=
    List.Pairwise.nil
  refine ⟨_, hMap, ?_, ?_⟩
  · exact
      (KeyMap.find_foldl RawEntry.type data 0
        (visible bytes) hEmpty).1
  · intro type
    have hFind :=
      (KeyMap.find_foldl RawEntry.type data type
        (visible bytes) hEmpty).2
    have hNone :
        KeyMap.find type ([] : List (Nat × Data)) = none :=
      rfl
    rw [hNone, Option.none_or] at hFind
    refine hFind.trans ?_
    change (firstOf bytes type).map data = _
    cases hFirst : firstOf bytes type with
    | none => rfl
    | some entry =>
        rw [Option.map_some, Option.bind_some]
        exact
          (hData entry
            (List.mem_of_find?_eq_some hFirst)).symm

/- A lookup has a result if the entry it finds can be read. -/
theorem lookupValue_eq
    (hViews : Views memory this bytes)
    (type : Nat)
    (hReadable :
      ∀ entry ∈ firstOf bytes type,
        Readable strlen entry) :
    lookupValue strlen memory this type =
      some ((firstOf bytes type).bind (makeData strlen)) := by
  unfold lookupValue
  rw [iterate_eq hViews, walk_find fun e => e.type = type]
  change
    (match firstOf bytes type with
      | none => some none
      | some e => (makeData strlen e).map some) =
      _
  cases hFirst : firstOf bytes type with
  | none => rfl
  | some entry =>
      rcases hMake : makeData strlen entry with _ | d
      · have hNot :=
          (makeData_eq_none_iff strlen entry).mp hMake
        exact absurd (hReadable entry hFirst) hNot
      · simp [hMake]

end Lookups

/-
  For every buffer, the two agree exactly if all strings of
  entries in front of the terminator can be read.
-/
theorem lookupValue_agrees_iff
    (strlen : Strings)
    {memory : Memory} {this : AuxVector}
    {bytes : List Byte}
    (hViews : Views memory this bytes) :
    Agrees strlen memory this bytes ↔
      ∀ entry ∈ visible bytes, Readable strlen entry := by
  constructor
  · rintro ⟨map, hMap, -⟩
    refine readable_of_asMap hViews ?_
    rw [hMap]
    exact Option.some_ne_none map
  · intro hReadable
    rcases asMap_of_readable hViews hReadable with
      ⟨map, hMap, hAscending, hFind⟩
    refine ⟨map, hMap, hAscending, ?_⟩
    intro type
    refine ⟨?_, hFind type⟩
    rw [hFind type]
    refine lookupValue_eq hViews type ?_
    intro entry hFirst
    exact
      hReadable entry (List.mem_of_find?_eq_some hFirst)

/-
  Two entries with the page size, the end, another entry and
  a few bytes more.
-/
def twoSizes : List Byte :=
  [6, 0, 0, 0, 0, 0, 0, 0, 0, 16, 0, 0, 0, 0, 0, 0] ++
    [6, 0, 0, 0, 0, 0, 0, 0, 0, 32, 0, 0, 0, 0, 0, 0] ++
    List.replicate 16 0 ++
    [15, 0, 0, 0, 0, 0, 0, 0, 0, 0, 0, 0, 0, 0, 0, 0] ++
    [6, 0, 0]

/- Memory with nothing but the complete part of some bytes. -/
def memoryOf (bytes : List Byte) : Memory :=
  fun b => if b = 10 then some (completePart bytes) else none

theorem lookupValue_agrees_twoSizes :
    Agrees (fun _ => none) (memoryOf twoSizes)
      ⟨some 10, ⟨some 10, 67⟩⟩ twoSizes := by
  have hViews :
      Views (memoryOf twoSizes) ⟨some 10, ⟨some 10, 67⟩⟩
        twoSizes :=
    { size := rfl
      held := fun _ =>
        ⟨10, [], rfl, by simp [memoryOf]⟩ }
  refine
    (lookupValue_agrees_iff (fun _ => none) hViews).mpr ?_
  decide

/- A page size and a null pointer to the platform's name. -/
def nullPlatform : List Byte :=
  [6, 0, 0, 0, 0, 0, 0, 0, 0, 16, 0, 0, 0, 0, 0, 0] ++
    [15, 0, 0, 0, 0, 0, 0, 0, 0, 0, 0, 0, 0, 0, 0, 0]

/- The lookup returns the page size, the map is not built. -/
theorem not_agrees_nullPlatform :
    lookupValue (fun _ => none) (memoryOf nullPlatform)
          ⟨some 10, ⟨some 10, 32⟩⟩ 6 =
        some (some (.number 4096)) ∧
      asMap (fun _ => none) (memoryOf nullPlatform)
          ⟨some 10, ⟨some 10, 32⟩⟩ =
        none ∧
      ¬ Agrees (fun _ => none) (memoryOf nullPlatform)
        ⟨some 10, ⟨some 10, 32⟩⟩ nullPlatform := by
  have hMap :
      asMap (fun _ => none) (memoryOf nullPlatform)
          ⟨some 10, ⟨some 10, 32⟩⟩ =
        none := by
    decide
  refine ⟨by decide, hMap, ?_⟩
  rintro ⟨map, hSome, -⟩
  rw [hMap] at hSome
  cases hSome

end AuxVector

end Cosmos
