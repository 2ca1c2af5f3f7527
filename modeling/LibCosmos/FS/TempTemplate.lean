import LibCosmos.FS.TempFile

/-
  What `expand_temp_path` makes of the template of a
  temporary file (`src/fs/filesystem.cxx`).

  Main declarations:
    * `TempTemplate.Parts`, `TempTemplate.placeholder`
    * `TempTemplate.Described`, `TempTemplate.Narrowed`
    * `TempTemplate.described_expandTempPath`
    * `TempTemplate.makeTempfile_congr`
-/

namespace Cosmos

namespace TempTemplate

open FS (slash)

------------------------------------------------------------
-- What a Template Stands For
------------------------------------------------------------

def placeholder : Str := str "\x7b\x7d"

def xs : Str := str "XXXXXX"

/- The directory part with its separator, and the rest. -/
structure Parts (template dir base : Str) : Prop where
  whole : template = dir ++ base
  directory : dir = [] ∨ ∃ d, dir = d ++ [slash]
  basename : slash ∉ base

/- The `int` is the number of characters. -/
def Exact (k : Nat) (suffixlen : Int32) : Prop :=
  suffixlen.toInt = k

/- A number of characters in an `int`. -/
def Narrowed (k : Nat) (suffixlen : Int32) : Prop :=
  suffixlen = Int32.ofNat k ∧
    (k < 2 ^ 31 → Exact k suffixlen)

/-
  A path and a suffix length for a template; `Counts` relates
  the length to the characters of the suffix.
-/
structure Described
    (Counts : Nat → Int32 → Prop)
    (template : Str)
    (result : Except Exn (Str × Int32)) : Prop where
  empty :
    ∀ dir, Parts template dir [] →
      result =
        .error
          (.usageError (str "empty basename not allowed"))
  replaced :
    ∀ dir front back,
      Parts template dir (front ++ placeholder ++ back) →
      ¬ placeholder <:+: back →
      ∃ suffixlen,
        result =
            .ok (dir ++ (front ++ xs ++ back), suffixlen) ∧
          Counts back.length suffixlen
  appended :
    ∀ dir base,
      Parts template dir base → base ≠ [] →
      ¬ placeholder <:+: base →
      ∃ suffixlen,
        result = .ok (dir ++ (base ++ xs), suffixlen) ∧
          Counts 0 suffixlen
  ready :
    ∀ path suffixlen, result = .ok (path, suffixlen) →
      ∃ before suffix,
        path = before ++ xs ++ suffix ∧
          Counts suffix.length suffixlen

------------------------------------------------------------
-- Parts and Placeholders
------------------------------------------------------------

variable {template dir base front back : Str}

/- Every template has its two parts. -/
theorem exists_parts (template : Str) :
    ∃ dir base, Parts template dir base := by
  by_cases hMem : slash ∈ template
  · have hReverse : slash ∈ template.reverse :=
      List.mem_reverse.mpr hMem
    rcases List.eq_append_cons_of_mem hReverse with
      ⟨after, before, hEq, hAfter⟩
    refine
      ⟨before.reverse ++ [slash], after.reverse,
        { whole := ?_
          directory := .inr ⟨_, rfl⟩
          basename := mt List.mem_reverse.mp hAfter }⟩
    have hBack := congrArg List.reverse hEq
    simpa using hBack
  · exact
      ⟨[], template,
        { whole := rfl
          directory := .inl rfl
          basename := hMem }⟩

/- Text with a placeholder has a last one. -/
theorem exists_last
    (base : Str) (hSome : placeholder <:+: base) :
    ∃ front back,
      base = front ++ placeholder ++ back ∧
        ¬ placeholder <:+: back := by
  rcases hSome with ⟨front, back, hParts⟩
  by_cases hMore : placeholder <:+: back
  · rcases exists_last back hMore with
      ⟨front', back', hBack, hLast⟩
    refine
      ⟨front ++ placeholder ++ front', back', ?_, hLast⟩
    rw [← hParts, hBack]
    simp only [List.append_assoc]
  · exact ⟨front, back, hParts.symm, hMore⟩
termination_by base.length
decreasing_by
  have hLength := congrArg List.length hParts
  have hTwo : placeholder.length = 2 := by decide
  simp only [List.length_append, hTwo] at hLength
  omega

/- The last number below a bound with a property. -/
theorem find_reverse_range
    {p : Nat → Bool} {k : Nat}
    (hHolds : p k = true) :
    ∀ {n : Nat}, k < n →
      (∀ i, k < i → i < n → p i = false) →
      (List.range n).reverse.find? p = some k
| 0, hLess, _ => absurd hLess (Nat.not_lt_zero k)
| n + 1, hLess, hLater => by
    rw [List.range_succ, List.reverse_append,
      List.reverse_singleton, List.singleton_append]
    by_cases hSame : k = n
    · subst hSame
      rw [List.find?_cons_of_pos hHolds]
    · have hLess' : k < n := by omega
      have hFalse := hLater n hLess' (Nat.lt_succ_self n)
      rw [List.find?_cons_of_neg (by simp [hFalse])]
      exact
        find_reverse_range hHolds hLess' fun i hLow hHigh =>
          hLater i hLow (Nat.lt_succ_of_lt hHigh)

/- Behind the last placeholder no other one begins. -/
theorem not_placeholder_drop
    (hLast : ¬ placeholder <:+: back)
    {i : Nat} (hLater : front.length < i) :
    placeholder.isPrefixOf
        ((front ++ placeholder ++ back).drop i) =
      false := by
  rw [Bool.eq_false_iff, ne_eq, List.isPrefixOf_iff_prefix]
  intro hHere
  rcases Nat.exists_eq_add_of_lt hLater with ⟨k, rfl⟩
  rw [List.append_assoc, Nat.add_assoc,
    List.drop_length_add_append] at hHere
  cases k with
  | zero =>
      -- its second character is no first one
      rcases hHere with ⟨rest, hRest⟩
      exact absurd (List.cons.inj hRest).1 (by decide)
  | succ k =>
      have hTwo : k + 1 + 1 = placeholder.length + k := by
        have hLength : placeholder.length = 2 := by decide
        omega
      rw [hTwo, List.drop_length_add_append] at hHere
      exact
        hLast
          (hHere.isInfix.trans
            (List.drop_suffix k back).isInfix)

------------------------------------------------------------
-- What the Code Computes
------------------------------------------------------------

/- What the code does with the two parts. -/
theorem expandTempPath_eq
    (hParts : Parts template dir base) :
    FS.expandTempPath template =
      if base = [] then
        .error
          (.usageError (str "empty basename not allowed"))
      else
        match
          (List.range base.length).reverse.find? fun i =>
            placeholder.isPrefixOf (base.drop i) with
        | some pos =>
            .ok
              (dir ++ base.take pos ++ xs ++
                  base.drop (pos + 2),
                Int32.ofNat (base.length - pos - 2))
        | none => .ok (dir ++ base ++ xs, 0) := by
  unfold FS.expandTempPath
  rcases hParts with ⟨rfl, rfl | ⟨d, rfl⟩, hBase⟩
  · have hNone : Str.rfind ([] ++ base) slash = none := by
      unfold Str.rfind
      rw [List.nil_append, if_neg hBase]
    rw [hNone]
    rfl
  · have hFind : Str.rfind (d ++ [slash] ++ base) slash =
        some d.length := by
      rw [List.append_assoc, List.singleton_append,
        Str.rfind_append_cons d base hBase]
    have hLength : d.length + 1 = (d ++ [slash]).length := by
      simp
    rw [hFind]
    simp only [hLength, List.take_left, List.drop_left]
    rfl

theorem expandTempPath_of_empty
    (hParts : Parts template dir []) :
    FS.expandTempPath template =
      .error
        (.usageError (str "empty basename not allowed")) := by
  rw [expandTempPath_eq hParts, if_pos rfl]

theorem expandTempPath_of_replaced
    (hParts :
      Parts template dir (front ++ placeholder ++ back))
    (hLast : ¬ placeholder <:+: back) :
    FS.expandTempPath template =
      .ok
        (dir ++ (front ++ xs ++ back),
          Int32.ofNat back.length) := by
  have hTwo : placeholder.length = 2 := by decide
  have hNe : front ++ placeholder ++ back ≠ [] := by
    simp [placeholder, str]
  have hLength :
      (front ++ placeholder ++ back).length =
        front.length + 2 + back.length := by
    simp only [List.length_append, hTwo]
  have hHere : placeholder.isPrefixOf
      ((front ++ placeholder ++ back).drop front.length) =
        true := by
    rw [List.append_assoc, List.drop_left,
      List.isPrefixOf_iff_prefix]
    exact List.prefix_append placeholder back
  have hFind :
      ((List.range
          (front ++ placeholder ++ back).length).reverse.find?
        fun i =>
          placeholder.isPrefixOf
            ((front ++ placeholder ++ back).drop i)) =
        some front.length :=
    find_reverse_range hHere (by omega) fun i hLater _ =>
      not_placeholder_drop hLast hLater
  have hTake :
      (front ++ placeholder ++ back).take front.length =
        front := by
    rw [List.append_assoc, List.take_left]
  have hDrop :
      (front ++ placeholder ++ back).drop
          (front.length + 2) = back := by
    rw [← hTwo, ← List.length_append, List.drop_left]
  have hCount :
      (front ++ placeholder ++ back).length - front.length -
          2 = back.length := by omega
  rw [expandTempPath_eq hParts, if_neg hNe, hFind]
  simp only
  rw [hTake, hDrop, hCount, List.append_assoc,
    List.append_assoc, List.append_assoc]

theorem expandTempPath_of_appended
    (hParts : Parts template dir base)
    (hSome : base ≠ [])
    (hNone : ¬ placeholder <:+: base) :
    FS.expandTempPath template =
      .ok (dir ++ (base ++ xs), 0) := by
  have hFind :
      ((List.range base.length).reverse.find? fun i =>
        placeholder.isPrefixOf (base.drop i)) =
        none := by
    rw [List.find?_eq_none]
    intro i _ hHere
    apply hNone
    have hPrefix := List.isPrefixOf_iff_prefix.mp hHere
    exact
      hPrefix.isInfix.trans (List.drop_suffix i base).isInfix
  rw [expandTempPath_eq hParts, if_neg hSome, hFind]
  simp only
  rw [List.append_assoc]

/- What `mkostemps()` wants to be asked for. -/
def Ready (path : Str) (suffixlen : Int32) : Prop :=
  ∃ before suffix,
    path = before ++ xs ++ suffix ∧
      suffixlen = Int32.ofNat suffix.length

theorem ready_of_expandTempPath
    {path : Str} {suffixlen : Int32}
    (hResult :
      FS.expandTempPath template = .ok (path, suffixlen)) :
    Ready path suffixlen := by
  rcases exists_parts template with ⟨dir, base, hParts⟩
  by_cases hEmpty : base = []
  · subst hEmpty
    rw [expandTempPath_of_empty hParts] at hResult
    cases hResult
  by_cases hSome : placeholder <:+: base
  · rcases exists_last base hSome with
      ⟨front, back, rfl, hLast⟩
    rw [expandTempPath_of_replaced hParts hLast] at hResult
    cases hResult
    exact
      ⟨dir ++ front, back,
        by simp only [List.append_assoc], rfl⟩
  · rw [expandTempPath_of_appended hParts hEmpty hSome]
      at hResult
    cases hResult
    exact
      ⟨dir ++ base, [],
        by simp only [List.append_assoc, List.append_nil],
        rfl⟩

/- A number below `2 ^ 31` is the same as an `int`. -/
theorem narrowed (k : Nat) : Narrowed k (Int32.ofNat k) := by
  refine ⟨rfl, ?_⟩
  intro hSmall
  exact Int32.toInt_ofNat_of_lt hSmall

/-
  Every template is expanded as it should be, up to the type
  of the suffix length.
-/
theorem described_expandTempPath (template : Str) :
    Described Narrowed template
      (FS.expandTempPath template) := by
  refine
    { empty := fun _ => expandTempPath_of_empty
      replaced := ?_
      appended := ?_
      ready := ?_ }
  · intro dir front back hParts hLast
    exact
      ⟨_, expandTempPath_of_replaced hParts hLast,
        narrowed back.length⟩
  · intro dir base hParts hSome hNone
    exact
      ⟨_, expandTempPath_of_appended hParts hSome hNone,
        narrowed 0⟩
  · intro path suffixlen hResult
    rcases ready_of_expandTempPath hResult with
      ⟨before, suffix, hPath, rfl⟩
    exact ⟨before, suffix, hPath, narrowed suffix.length⟩

/- A template with so many letters behind a placeholder. -/
def letters (k : Nat) : Str :=
  placeholder ++ List.replicate k 97

theorem expandTempPath_letters (k : Nat) :
    FS.expandTempPath (letters k) =
      .ok (xs ++ List.replicate k 97, Int32.ofNat k) := by
  have hParts : Parts (letters k) []
      ([] ++ placeholder ++ List.replicate k 97) := by
    refine
      { whole := rfl
        directory := .inl rfl
        basename := ?_ }
    intro hMem
    rcases List.mem_append.mp hMem with hFirst | hRest
    · exact absurd hFirst (by decide)
    · exact
        absurd (List.eq_of_mem_replicate hRest) (by decide)
  have hLast :
      ¬ placeholder <:+: List.replicate k (97 : Byte) := by
    intro hThere
    have hMem : (123 : Byte) ∈ List.replicate k (97 : Byte) :=
      hThere.subset (by decide)
    exact absurd (List.eq_of_mem_replicate hMem) (by decide)
  have hResult := expandTempPath_of_replaced hParts hLast
  rw [List.length_replicate] at hResult
  exact hResult

/- The suffix of `2 ^ 31` letters has a negative length. -/
theorem not_described_letters :
    ¬ Described Exact (letters (2 ^ 31))
      (FS.expandTempPath (letters (2 ^ 31))) := by
  intro hDescribed
  rcases hDescribed.ready _ _
      (expandTempPath_letters (2 ^ 31)) with
    ⟨before, suffix, -, hExact⟩
  have hNegative :
      (Int32.ofNat (2 ^ 31)).toInt = -2 ^ 31 := by decide
  unfold Exact at hExact
  rw [hNegative] at hExact
  omega

------------------------------------------------------------
-- The System Call
------------------------------------------------------------

/- `make_tempfile` asks for nothing else. -/
theorem makeTempfile_congr
    (template : Str)
    {f g : Str → Int32 → Sys (FileNum × Str)}
    (hSame :
      ∀ path suffixlen, Ready path suffixlen →
        f path suffixlen = g path suffixlen) :
    FS.makeTempfile template f =
      FS.makeTempfile template g := by
  unfold FS.makeTempfile
  cases hExpand : FS.expandTempPath template with
  | error e => rfl
  | ok made =>
      rcases made with ⟨path, suffixlen⟩
      have hReady := ready_of_expandTempPath hExpand
      simp only [hSame path suffixlen hReady]

end TempTemplate

end Cosmos
