import LibCosmos.Core.Split
import LibCosmos.Foundation.Trim

/-
  The variants of `strip` for narrow and for wide strings
  (`src/string.cxx`).

  `isspace` and `iswspace` depend on the locale and are
  arbitrary here, and so is the sign of `char`.

  Main declarations:
    * `Split.stripWide`
    * `Split.Stripped`, `Split.SeenAlike`
    * `Split.strip_stripped_iff`
-/

namespace Cosmos

/- A `wchar_t` or `wint_t`; only its bits matter. -/
abbrev WChar := UInt32

abbrev WStr := List WChar

namespace Split

------------------------------------------------------------
-- The Code for Wide Strings
------------------------------------------------------------

section Code

variable (iswspace : WChar → Bool)
variable (char_signed : Bool)

/- The conversion of a `wchar_t` to a `char`. -/
def narrow (ch : WChar) : Byte := ch.toUInt8

/- The conversion back, with the sign if there is one. -/
def widen (ch : Byte) : WChar :=
  if char_signed ∧ 128 ≤ ch then ch.toUInt32 ||| 0xFFFFFF00
  else ch.toUInt32

/- The parameter of this function is a `char`. -/
def stripitWide (strip_set : WStr) (ch : Byte) : Bool :=
  if strip_set = [] then iswspace (widen char_signed ch)
  else decide (widen char_signed ch ∈ strip_set)

/- The characters of `s` are narrowed for `stripit`. -/
def stripWide (s strip_set : WStr) : WStr :=
  Trim.trim
    (fun ch =>
      stripitWide iswspace char_signed strip_set (narrow ch))
    s

end Code

------------------------------------------------------------
-- The Promise
------------------------------------------------------------

section Promise

variable {χ : Type} [DecidableEq χ]

/- The characters that are to go. -/
def inSet
    (isspace : χ → Bool) (strip_set : List χ) (ch : χ) :
    Bool :=
  if strip_set = [] then isspace ch
  else decide (ch ∈ strip_set)

/- What stripping a string comes to. -/
structure Stripped
    (isspace : χ → Bool)
    (strip : List χ → List χ → List χ)
    (s strip_set : List χ) : Prop where
  trimmed :
    Trim.Trimmed (inSet isspace strip_set) s
      (strip s strip_set)
  unique :
    ∀ t, Trim.Trimmed (inSet isspace strip_set) s t →
      t = strip s strip_set
  again :
    strip (strip s strip_set) strip_set = strip s strip_set

/-
  Trimming by any set is stripping if it comes to the right
  result once.
-/
theorem stripped_iff
    {isspace : χ → Bool} {strip : List χ → List χ → List χ}
    {s strip_set : List χ} {p : χ → Bool}
    (hTrim : ∀ t, strip t strip_set = Trim.trim p t) :
    Stripped isspace strip s strip_set ↔
      Trim.Trimmed (inSet isspace strip_set) s
        (Trim.trim p s) := by
  constructor
  · intro hStripped
    rw [← hTrim]
    exact hStripped.trimmed
  · intro hTrimmed
    refine ⟨?_, ?_, ?_⟩
    · rw [hTrim]
      exact hTrimmed
    · intro t hOther
      rw [hTrim, (Trim.trimmed_iff _ _ _).mp hTrimmed]
      exact (Trim.trimmed_iff _ _ _).mp hOther
    · rw [hTrim, hTrim]
      exact Trim.trim_trim p s

end Promise

/- Narrow strings are stripped as promised. -/
theorem strip_stripped
    (isspace : Byte → Bool) (s strip_set : Str) :
    Stripped isspace (strip isspace) s strip_set := by
  have hTrim :
      ∀ t,
        strip isspace t strip_set =
          Trim.trim (inSet isspace strip_set) t :=
    fun _ => rfl
  exact (stripped_iff hTrim).mpr (Trim.trimmed_trim _ s)

------------------------------------------------------------
-- Wide Strings
------------------------------------------------------------

/-
  Of the characters from either end up to the first one that
  stays, none is in the set only by itself or only as a
  `char`.
-/
def SeenAlike
    (iswspace : WChar → Bool) (char_signed : Bool)
    (s strip_set : WStr) : Prop :=
  Trim.Alike (inSet iswspace strip_set)
      (fun ch =>
        stripitWide iswspace char_signed strip_set
          (narrow ch))
      s ∧
    Trim.Alike (inSet iswspace strip_set)
      (fun ch =>
        stripitWide iswspace char_signed strip_set
          (narrow ch))
      s.reverse

/-
  Narrow strings are stripped as promised, and wide ones
  exactly if narrowing their characters makes no difference
  to the set.
-/
theorem strip_stripped_iff
    (isspace : Byte → Bool) (s strip_set : Str)
    (iswspace : WChar → Bool) (char_signed : Bool)
    (ws wstrip_set : WStr) :
    Stripped isspace (strip isspace) s strip_set ∧
        Stripped iswspace (stripWide iswspace char_signed)
          ws wstrip_set ↔
      SeenAlike iswspace char_signed ws wstrip_set := by
  have hTrim :
      ∀ t,
        stripWide iswspace char_signed t wstrip_set =
          Trim.trim
            (fun ch =>
              stripitWide iswspace char_signed wstrip_set
                (narrow ch))
            t :=
    fun _ => rfl
  rw [stripped_iff hTrim, Trim.trimmed_trim_iff]
  exact and_iff_right (strip_stripped isspace s strip_set)

theorem widen_narrow
    (char_signed : Bool) {ch : WChar} (hAscii : ch < 128) :
    widen char_signed (narrow ch) = ch := by
  have hSmall : ch.toNat < 128 := by
    simpa [UInt32.lt_iff_toNat_lt] using hAscii
  have hNarrow : (narrow ch).toNat = ch.toNat := by
    unfold narrow
    rw [UInt32.toNat_toUInt8]
    omega
  have hPositive : ¬ (char_signed = true ∧ 128 ≤ narrow ch) := by
    rintro ⟨-, hLarge⟩
    have hNat : 128 ≤ (narrow ch).toNat := by
      simpa [UInt8.le_iff_toNat_le] using hLarge
    omega
  unfold widen
  rw [if_neg hPositive]
  apply UInt32.toNat_inj.mp
  rw [UInt8.toNat_toUInt32, hNarrow]

/- All is well with ASCII strings. -/
theorem seenAlike_of_ascii
    (iswspace : WChar → Bool) (char_signed : Bool)
    {s : WStr} (strip_set : WStr)
    (hAscii : ∀ ch ∈ s, ch < 128) :
    SeenAlike iswspace char_signed s strip_set := by
  have hSame :
      ∀ ch ∈ s,
        inSet iswspace strip_set ch =
          stripitWide iswspace char_signed strip_set
            (narrow ch) := by
    intro ch hMem
    unfold inSet stripitWide
    rw [widen_narrow char_signed (hAscii ch hMem)]
  refine
    ⟨Trim.alike_of_forall hSame, Trim.alike_of_forall ?_⟩
  intro ch hMem
  exact hSame ch (List.mem_reverse.mp hMem)

/- `std::iswspace` in the "C" locale. -/
def iswspaceC (ch : WChar) : Bool :=
  ch = 32 ∨ 9 ≤ ch ∧ ch ≤ 13

/- The letter U+0120 is taken for a blank. -/
theorem stripWide_takes_letter :
    stripWide iswspaceC true [0x120] [] = [] ∧
      iswspaceC 0x120 = false ∧
      ¬ Stripped iswspaceC (stripWide iswspaceC true)
        [0x120] [] := by
  have hGone : stripWide iswspaceC true [0x120] [] = [] := by
    decide
  have hLetter : iswspaceC 0x120 = false := by decide
  refine ⟨hGone, hLetter, ?_⟩
  intro hStripped
  have hStays :
      Trim.Trimmed (inSet iswspaceC []) [0x120] [0x120] :=
    { cut := ⟨[], [], by simp⟩
      head := by simpa [inSet] using hLetter
      last := by simpa [inSet] using hLetter }
  have hSame := hStripped.unique _ hStays
  rw [hGone] at hSame
  cases hSame

end Split

end Cosmos
