import LibCosmos.Core.Types
import LibCosmos.Foundation.Numerals

/-
  Output streams of the standard library, as far as they
  take strings and unsigned numbers, in the locale without
  digit grouping.

  Main declarations:
    * `FmtFlags`, `OStream`
    * `OStream.putString`, `OStream.putUnsigned`
    * `padNumber_zeros_eq_iff`
-/

namespace Cosmos

open Numerals

------------------------------------------------------------
-- Output Streams
------------------------------------------------------------

/- `std::ios_base::fmtflags`. -/
structure FmtFlags where
  left : Bool
  right : Bool
  internal : Bool
  dec : Bool
  oct : Bool
  hex : Bool
  showbase : Bool
  uppercase : Bool
  -- the flags that do not matter to unsigned numbers
  others : UInt32
deriving DecidableEq, Repr

namespace FmtFlags

/- The adjustment is left if only that flag is set. -/
def isLeft (flags : FmtFlags) : Bool :=
  flags.left && !flags.right && !flags.internal

def isInternal (flags : FmtFlags) : Bool :=
  flags.internal && !flags.left && !flags.right

def isOct (flags : FmtFlags) : Bool :=
  flags.oct && !flags.dec && !flags.hex

def isHex (flags : FmtFlags) : Bool :=
  flags.hex && !flags.dec && !flags.oct

end FmtFlags

/- `width` is what the next output is padded to. -/
structure OStream where
  flags : FmtFlags
  fill : Byte
  width : Int
  text : Str
deriving DecidableEq, Repr

/- Internal padding comes behind a sign or `0x`. -/
def signLength : Str → Nat
| [] => 0
| c :: cs =>
    if c = 45 ∨ c = 43 then 1
    else if
      c = 48 ∧ (cs.head? = some 120 ∨ cs.head? = some 88)
    then 2
    else 0

/- `std::__pad`, which does nothing if there is no room. -/
def padNumber
    (flags : FmtFlags) (fill : Byte) (width : Int)
    (text : Str) : Str :=
  let padding :=
    List.replicate (width - text.length).toNat fill
  if flags.isLeft then text ++ padding
  else if flags.isInternal then
    let mod := signLength text
    text.take mod ++ padding ++ text.drop mod
  else padding ++ text

/- The digits in the base of the stream, and its prefix. -/
def numberText (flags : FmtFlags) (n : Nat) : Str :=
  if flags.isOct then
    (if flags.showbase && n ≠ 0 then [48] else []) ++
      digitText 8 flags.uppercase n
  else if flags.isHex then
    (if flags.showbase && n ≠ 0 then
      [48, if flags.uppercase then 88 else 120] else []) ++
      digitText 16 flags.uppercase n
  else digitText 10 flags.uppercase n

namespace OStream

/- `std::setw` and `std::setfill`. -/
def setw (o : OStream) (n : Int32) : OStream :=
  { o with width := n.toInt }

def setfill (o : OStream) (c : Byte) : OStream :=
  { o with fill := c }

/- `std::hex` and `std::oct`. -/
def hex (o : OStream) : OStream :=
  { o with flags :=
    { o.flags with dec := false, oct := false, hex := true } }

def oct (o : OStream) : OStream :=
  { o with flags :=
    { o.flags with dec := false, oct := true, hex := false } }

/- Output of a string, which uses up the width. -/
def putString (o : OStream) (s : Str) : OStream :=
  let padding :=
    List.replicate (o.width - s.length).toNat o.fill
  { o with
    text :=
      o.text ++
        if o.flags.isLeft then s ++ padding
        else padding ++ s
    width := 0 }

/- Output of an unsigned number of any size. -/
def putUnsigned (o : OStream) (n : UInt64) : OStream :=
  { o with
    text :=
      o.text ++
        padNumber o.flags o.fill o.width
          (numberText o.flags n.toNat)
    width := 0 }

end OStream

------------------------------------------------------------
-- Padded Numbers
------------------------------------------------------------

/- Padding keeps a text unless it is shorter. -/
theorem length_padNumber
    (flags : FmtFlags) (fill : Byte) (width : Int)
    (text : Str) :
    (padNumber flags fill width text).length =
      max width.toNat text.length := by
  unfold padNumber
  simp only []
  split_ifs
  · simp only [List.length_append, List.length_replicate]
    omega
  · simp only [List.length_append, List.length_replicate,
      List.length_take, List.length_drop]
    omega
  · simp only [List.length_append, List.length_replicate]
    omega

/-
  A text of zeros and digits is padded with more zeros in
  front, or with zeros behind the digits.
-/
theorem padNumber_zeros
    (flags : FmtFlags) (width : Int) (e : Nat) {ds : Str}
    (hSign : signLength (List.replicate e 48 ++ ds) = 0) :
    padNumber flags 48 width (List.replicate e 48 ++ ds) =
      List.replicate e 48 ++
        if flags.isLeft then
          ds ++
            List.replicate
              (width.toNat - (e + ds.length)) 48
        else
          List.replicate
              (width.toNat - (e + ds.length)) 48 ++ ds := by
  have hCount :
      (width -
          ((List.replicate e (48 : Byte) ++ ds).length :
            Int)).toNat =
        width.toNat - (e + ds.length) := by
    simp only [List.length_append, List.length_replicate]
    omega
  unfold padNumber
  simp only [hCount, hSign, List.take_zero, List.drop_zero,
    List.nil_append, ite_self]
  by_cases hLeft : flags.isLeft = true
  · rw [if_pos hLeft, if_pos hLeft, List.append_assoc]
  · rw [if_neg hLeft, if_neg hLeft, ← List.append_assoc,
      ← List.append_assoc, ← List.replicate_add,
      ← List.replicate_add, Nat.add_comm]

/-
  Digits that do not start with zero must not be followed by
  zeros.
-/
theorem padNumber_zeros_eq_iff
    (flags : FmtFlags) (width : Int) (e : Nat) {ds : Str}
    (hSign : signLength (List.replicate e 48 ++ ds) = 0)
    (hDigits : ds = [48] ∨ ∃ c cs, ds = c :: cs ∧ c ≠ 48) :
    padNumber flags 48 width (List.replicate e 48 ++ ds) =
        List.replicate
            (max width.toNat (e + ds.length) - ds.length)
            48 ++ ds ↔
      ds = [48] ∨
        (flags.isLeft = true →
          width.toNat ≤ ds.length + e) := by
  have hZeros :
      max width.toNat (e + ds.length) - ds.length =
        e + (width.toNat - (e + ds.length)) := by
    omega
  rw [padNumber_zeros flags width e hSign, hZeros,
    List.replicate_add, List.append_assoc,
    List.append_cancel_left_eq]
  by_cases hLeft : flags.isLeft = true
  · rw [if_pos hLeft]
    rcases hDigits with hZero | ⟨c, cs, hDs, hNe⟩
    · simp only [hZero, true_or, iff_true]
      rw [← List.replicate_succ', List.replicate_succ]
      rfl
    · have hOther : ds ≠ [48] := by
        intro hZero
        rw [hDs] at hZero
        exact hNe (List.cons.inj hZero).1
      constructor
      · intro hEq
        refine Or.inr fun _ => ?_
        cases hMore : width.toNat - (e + ds.length) with
        | zero => omega
        | succ k =>
            rw [hMore, hDs, List.replicate_succ] at hEq
            exact absurd (List.cons.inj hEq).1 hNe
      · rintro (hZero | hFits)
        · exact absurd hZero hOther
        · have hNone : width.toNat - (e + ds.length) = 0 := by
            have hLe := hFits hLeft
            omega
          rw [hNone]
          exact List.append_nil ds
  · rw [if_neg hLeft]
    simp [hLeft]

/- Digits alone have no sign. -/
theorem signLength_of_digits
    {text : Str} (hDigits : ∀ c ∈ text, digitValue c ≠ none) :
    signLength text = 0 := by
  have hOther : ∀ c : Byte, digitValue c ≠ none →
      c ≠ 45 ∧ c ≠ 43 ∧ c ≠ 120 ∧ c ≠ 88 := by
    intro c hValue
    refine ⟨?_, ?_, ?_, ?_⟩
    · rintro rfl
      exact hValue rfl
    · rintro rfl
      exact hValue rfl
    · rintro rfl
      exact hValue rfl
    · rintro rfl
      exact hValue rfl
  cases text with
  | nil => rfl
  | cons c cs =>
      rcases hOther c (hDigits c List.mem_cons_self) with
        ⟨hMinus, hPlus, -, -⟩
      have hHead :
          ¬ (cs.head? = some 120 ∨ cs.head? = some 88) := by
        rintro (hX | hX)
        · exact
            (hOther 120
              (hDigits 120
                (List.mem_cons_of_mem c
                  (List.mem_of_mem_head? hX)))).2.2.1 rfl
        · exact
            (hOther 88
              (hDigits 88
                (List.mem_cons_of_mem c
                  (List.mem_of_mem_head? hX)))).2.2.2 rfl
      simp only [signLength, hMinus, hPlus, or_self, hHead,
        and_false, if_false]

theorem mem_padNumber
    (flags : FmtFlags) (fill : Byte) (width : Int)
    {text : Str} {c : Byte} (hMem : c ∈ text) :
    c ∈ padNumber flags fill width text := by
  unfold padNumber
  simp only []
  split_ifs
  · exact List.mem_append_left _ hMem
  · rw [← List.take_append_drop (signLength text) text,
      List.mem_append] at hMem
    rcases hMem with hFront | hBack
    · exact
        List.mem_append_left _ (List.mem_append_left _ hFront)
    · exact List.mem_append_right _ hBack
  · exact List.mem_append_right _ hMem

end Cosmos
