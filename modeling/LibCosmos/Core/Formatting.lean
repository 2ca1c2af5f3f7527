import LibCosmos.Core.OStream

/-
  Numbers in hexadecimal and octal style on output streams
  (`include/formatting.hxx`, `src/formatting.cxx`).

  Main declarations:
    * `FormattedNumber.output`, `hexNum`, `octNum`
    * `FormattedNumber.Plain`, `FormattedNumber.Undisturbed`
    * `FormattedNumber.plain_iff`
-/

namespace Cosmos

open Numerals

------------------------------------------------------------
-- Formatted Numbers
------------------------------------------------------------

structure FormattedNumber where
  mNum : UInt64
  mWidth : UInt64
  mSetbaseFn : OStream → OStream
  mBasePrefix : Str
  mShowBase : Bool := true

/- `HexNum`. -/
def hexNum (num width : UInt64) : FormattedNumber where
  mNum := num
  mWidth := width
  mSetbaseFn := OStream.hex
  mBasePrefix := str "0x"

/- `OctNum`. -/
def octNum (num width : UInt64) : FormattedNumber where
  mNum := num
  mWidth := width
  mSetbaseFn := OStream.oct
  mBasePrefix := str "0o"

namespace FormattedNumber

/- `FormattedNumber::showBase(bool)`. -/
def showBase
    (this : FormattedNumber) (yesNo : Bool) :
    FormattedNumber :=
  { this with mShowBase := yesNo }

/- `operator<<`; the field width of a stream is an `int`. -/
def output
    (o : OStream) (fmtnum : FormattedNumber) : OStream :=
  let origFlags := o.flags
  let origFill := o.fill
  let o :=
    if fmtnum.mShowBase then o.putString fmtnum.mBasePrefix
    else o
  let o := o.setw fmtnum.mWidth.toUInt32.toInt32
  let o := fmtnum.mSetbaseFn o
  let o := (o.setfill 48).putUnsigned fmtnum.mNum
  { o with
    flags := origFlags
    fill := origFill }

end FormattedNumber

/- The two helper types. -/
inductive NumStyle where
| hex
| oct
deriving DecidableEq, Repr

namespace NumStyle

def base : NumStyle → Nat
| hex => 16
| oct => 8

/- The second character of the prefix. -/
def letter : NumStyle → Byte
| hex => 120
| oct => 111

def number
    (style : NumStyle) (num width : UInt64) :
    FormattedNumber :=
  match style with
  | .hex => hexNum num width
  | .oct => octNum num width

/- The flags while the number is printed. -/
def flags (style : NumStyle) (flags : FmtFlags) : FmtFlags :=
  match style with
  | .hex =>
      { flags with dec := false, oct := false, hex := true }
  | .oct =>
      { flags with dec := false, oct := true, hex := false }

theorem base_bounds (style : NumStyle) :
    2 ≤ style.base ∧ style.base ≤ 16 := by
  cases style with
  | hex => decide
  | oct => decide

end NumStyle

namespace FormattedNumber

section Output

variable (o : OStream) (style : NumStyle)
variable (num width : UInt64) (showBase : Bool)

/- The prefix, if there shall be one. -/
def basePart : Str :=
  if showBase then [48, style.letter] else []

/- What the number shall look like. -/
def plainText : Str :=
  basePart style showBase ++
    padded style.base o.flags.uppercase width.toNat
      num.toNat

/- The stream after the output. -/
def after : OStream :=
  output o ((style.number num width).showBase showBase)

/-
  The output is as documented, it means the number, and the
  format of the stream is what it was.
-/
structure Plain : Prop where
  text :
    (after o style num width showBase).text =
      o.text ++ plainText o style num width showBase
  parsed :
    parse style.base
        ((after o style num width showBase).text.drop
          (o.text ++ basePart style showBase).length) =
      some num.toNat
  flags : (after o style num width showBase).flags = o.flags
  fill : (after o style num width showBase).fill = o.fill

/- How many digits the number has. -/
def digitCount : Nat :=
  (digitText style.base o.flags.uppercase num.toNat).length

/- What the stream itself puts in front of the digits. -/
def ownPrefix : Nat :=
  if o.flags.showbase && num ≠ 0 then
    match style with
    | .hex => 2
    | .oct => 1
  else 0

/- The width of the number once it is an `int`. -/
def fieldWidth : Nat :=
  width.toUInt32.toInt32.toInt.toNat

/- How far a width that is pending pads the prefix. -/
def prefixPadding : Nat :=
  if showBase then (o.width - 2).toNat else 0

/-
  Nothing that was set before gets between the digits and
  what belongs in front of them: no prefix or padding of the
  stream, and no pending width. Widths that are no `int` are
  made up for only by a pending width that pads the prefix
  on the right with zeros.
-/
structure Undisturbed : Prop where
  digits :
    num = 0 ∨
      (style = .hex → o.flags.showbase = false) ∧
        (o.flags.isLeft = true →
          fieldWidth width ≤
            digitCount o style num + ownPrefix o style num)
  zeros :
    0 < prefixPadding o showBase →
      o.flags.isLeft = true ∧ o.fill = 48
  total :
    prefixPadding o showBase +
        max (fieldWidth width)
          (digitCount o style num + ownPrefix o style num) =
      max width.toNat (digitCount o style num)

end Output

------------------------------------------------------------
-- The Output
------------------------------------------------------------

/- The prefix with the padding of a pending width. -/
def paddedBase
    (o : OStream) (style : NumStyle) (showBase : Bool) :
    Str :=
  let padding :=
    List.replicate (prefixPadding o showBase) o.fill
  if o.flags.isLeft then basePart style showBase ++ padding
  else padding ++ basePart style showBase

/- The characters in front of the digits. -/
def ownText
    (o : OStream) (style : NumStyle) (num : UInt64) : Str :=
  if o.flags.showbase && num ≠ 0 then
    match style with
    | .hex => [48, if o.flags.uppercase then 88 else 120]
    | .oct => [48]
  else []

def numberPart
    (o : OStream) (style : NumStyle) (num width : UInt64) :
    Str :=
  padNumber (style.flags o.flags) 48
    width.toUInt32.toInt32.toInt
    (ownText o style num ++
      digitText style.base o.flags.uppercase num.toNat)

theorem isLeft_flags (style : NumStyle) (flags : FmtFlags) :
    (style.flags flags).isLeft = flags.isLeft := by
  cases style with
  | hex => rfl
  | oct => rfl

theorem numberText_flags
    (o : OStream) (style : NumStyle) (num : UInt64) :
    numberText (style.flags o.flags) num.toNat =
      ownText o style num ++
        digitText style.base o.flags.uppercase num.toNat := by
  have hZero : num.toNat ≠ 0 ↔ num ≠ 0 := by
    rw [ne_eq, ne_eq, ← UInt64.toNat_inj]
    rfl
  have hSame : decide (num.toNat ≠ 0) = decide (num ≠ 0) :=
    decide_eq_decide.mpr hZero
  unfold numberText ownText
  rw [hSame]
  cases style with
  | hex => rfl
  | oct => rfl

theorem number_eq
    (style : NumStyle) (num width : UInt64) :
    style.number num width =
      { mNum := num
        mWidth := width
        mSetbaseFn := fun o =>
          { o with flags := style.flags o.flags }
        mBasePrefix := [48, style.letter] } := by
  cases style with
  | hex => rfl
  | oct => rfl

/- All that the operator leaves in the stream. -/
theorem after_eq
    (o : OStream) (style : NumStyle) (num width : UInt64)
    (showBase : Bool) :
    after o style num width showBase =
      { o with
        text :=
          o.text ++
            (paddedBase o style showBase ++
              numberPart o style num width)
        width := 0 } := by
  have hText := numberText_flags o style num
  unfold after output numberPart paddedBase
  rw [← hText, number_eq]
  cases showBase with
  | true =>
      rw [← List.append_assoc]
      rfl
  | false =>
      have hLeft : ∀ c : Bool,
          (if c = true then ([] : Str) ++ [] else [] ++ []) =
            [] :=
        fun c => by rw [ite_self]; rfl
      have hNone :
          (if o.flags.isLeft then
            basePart style false ++
              List.replicate (prefixPadding o false) o.fill
          else
            List.replicate (prefixPadding o false) o.fill ++
              basePart style false) = [] :=
        hLeft o.flags.isLeft
      rw [hNone]
      rfl

/-
  A padded prefix is one only if it is padded on the right,
  and then what it is padded with counts as digits.
-/
theorem paddedBase_append_eq_iff
    (o : OStream) (style : NumStyle) (showBase : Bool)
    (j : Nat) {text ds : Str}
    (hLe : ds.length ≤ text.length) :
    paddedBase o style showBase ++ text =
        basePart style showBase ++
          (List.replicate j 48 ++ ds) ↔
      (0 < prefixPadding o showBase →
        o.flags.isLeft = true ∧ o.fill = 48) ∧
        prefixPadding o showBase + text.length =
          j + ds.length ∧
        text =
          List.replicate (text.length - ds.length) 48 ++
            ds := by
  have hFill :=
    fill_append_eq_iff 48 o.fill (prefixPadding o showBase) j
      hLe
  unfold paddedBase
  by_cases hLeft : o.flags.isLeft = true
  · simp only [if_pos hLeft]
    rw [List.append_assoc, List.append_cancel_left_eq, hFill]
    simp only [hLeft, true_and]
  · simp only [if_neg hLeft]
    cases hPadding : prefixPadding o showBase with
    | zero =>
        rw [hPadding] at hFill
        have hNone : ¬ 0 < 0 := Nat.lt_irrefl 0
        simp only [List.replicate_zero, List.nil_append,
          hNone, false_implies, true_and] at hFill ⊢
        rw [List.append_cancel_left_eq, hFill]
    | succ k =>
        have hShow : showBase = true := by
          cases showBase with
          | true => rfl
          | false => cases hPadding
        have hLetter : style.letter ≠ 48 := by
          cases style with
          | hex => decide
          | oct => decide
        constructor
        · intro hEq
          rw [hShow] at hEq
          cases k with
          | zero =>
              exact
                absurd (List.cons.inj (List.cons.inj hEq).2).1
                  hLetter.symm
          | succ k =>
              rcases List.cons.inj hEq with ⟨hFirst, hRest⟩
              have hSecond := (List.cons.inj hRest).1
              exact
                absurd (hSecond.symm.trans hFirst) hLetter
        · rintro ⟨hOnly, -⟩
          exact absurd (hOnly (Nat.succ_pos k)).1 hLeft

theorem length_ownText
    (o : OStream) (style : NumStyle) (num : UInt64) :
    (ownText o style num).length = ownPrefix o style num := by
  unfold ownText ownPrefix
  by_cases hOwn : (o.flags.showbase && num ≠ 0) = true
  · rw [if_pos hOwn, if_pos hOwn]
    cases style with
    | hex => rfl
    | oct => rfl
  · rw [if_neg hOwn, if_neg hOwn]
    rfl

/- A letter of the stream is no digit. -/
theorem numberPart_ne_of_letter
    (o : OStream) (num width : UInt64) (k : Nat)
    (hOwn : (o.flags.showbase && num ≠ 0) = true) :
    numberPart o .hex num width ≠
      List.replicate k 48 ++
        digitText 16 o.flags.uppercase num.toNat := by
  intro hEq
  have hMem :
      (if o.flags.uppercase then 88 else 120) ∈
        numberPart o .hex num width := by
    refine mem_padNumber _ _ _ (List.mem_append_left _ ?_)
    unfold ownText
    rw [if_pos hOwn]
    exact List.mem_cons_of_mem _ List.mem_cons_self
  have hNone :
      digitValue (if o.flags.uppercase then 88 else 120) =
        none := by
    cases o.flags.uppercase with
    | true => rfl
    | false => rfl
  rw [hEq, List.mem_append] at hMem
  rcases hMem with hZero | hDigit
  · rw [List.eq_of_mem_replicate hZero] at hNone
    cases hNone
  · have hValue :=
      digitValue_of_mem (by decide) (by decide)
        o.flags.uppercase hDigit
    exact hValue hNone

/- Without a letter the stream puts zeros in front. -/
theorem ownText_eq_zeros
    (o : OStream) (style : NumStyle) (num : UInt64)
    (hPlain :
      style = .hex → o.flags.showbase = true → num = 0) :
    ownText o style num =
      List.replicate (ownPrefix o style num) 48 := by
  unfold ownText ownPrefix
  by_cases hSet : (o.flags.showbase && num ≠ 0) = true
  · rw [if_pos hSet, if_pos hSet]
    cases style with
    | hex =>
        rw [Bool.and_eq_true, decide_eq_true_eq] at hSet
        exact absurd (hPlain rfl hSet.1) hSet.2
    | oct => rfl
  · rw [if_neg hSet, if_neg hSet]
    rfl

/- Zeros and digits have no sign. -/
theorem signLength_zeros
    (style : NumStyle) (upper : Bool) (e n : Nat) :
    signLength
        (List.replicate e 48 ++ digitText style.base upper n) =
      0 := by
  rcases style.base_bounds with ⟨hLow, hHigh⟩
  refine signLength_of_digits fun c hMem => ?_
  rcases List.mem_append.mp hMem with hZero | hDigit
  · rw [List.eq_of_mem_replicate hZero]
    decide
  · exact digitValue_of_mem hLow hHigh upper hDigit

/- The number is zeros and digits. -/
theorem numberPart_eq_iff
    (o : OStream) (style : NumStyle) (num width : UInt64) :
    numberPart o style num width =
        List.replicate
            ((numberPart o style num width).length -
              digitCount o style num) 48 ++
          digitText style.base o.flags.uppercase num.toNat ↔
      num = 0 ∨
        (style = .hex → o.flags.showbase = false) ∧
          (o.flags.isLeft = true →
            fieldWidth width ≤
              digitCount o style num +
                ownPrefix o style num) := by
  rcases style.base_bounds with ⟨hLow, hHigh⟩
  by_cases hPlain :
      style = .hex → o.flags.showbase = true → num = 0
  · have hZero :
        digitText style.base o.flags.uppercase num.toNat =
            [48] ↔
          num = 0 := by
      rw [digitText_eq_zero_iff hLow hHigh,
        ← UInt64.toNat_inj]
      rfl
    have hLength := length_padNumber (style.flags o.flags) 48
      width.toUInt32.toInt32.toInt
      (List.replicate (ownPrefix o style num) 48 ++
        digitText style.base o.flags.uppercase num.toNat)
    rw [List.length_append, List.length_replicate] at hLength
    have hMain :=
      padNumber_zeros_eq_iff (style.flags o.flags)
        width.toUInt32.toInt32.toInt
        (ownPrefix o style num)
        (signLength_zeros style o.flags.uppercase _ _)
        (digitText_zero_or hLow hHigh _ num.toNat)
    unfold numberPart digitCount fieldWidth
    rw [ownText_eq_zeros o style num hPlain, hLength, hMain,
      hZero, isLeft_flags]
    refine or_congr_right' fun hNum => ?_
    have hHexPlain :
        style = .hex → o.flags.showbase = false := by
      intro hHex
      rw [← Bool.not_eq_true]
      intro hShow
      exact hNum (hPlain hHex hShow)
    exact (and_iff_right hHexPlain).symm
  · push Not at hPlain
    rcases hPlain with ⟨hHex, hShow, hNum⟩
    subst hHex
    refine
      iff_of_false
        (numberPart_ne_of_letter o num width _
          (by simp [hShow, hNum]))
        ?_
    rintro (hZero | ⟨hPlain, -⟩)
    · exact hNum hZero
    · rw [hPlain rfl] at hShow
      cases hShow

------------------------------------------------------------
-- Plain Output
------------------------------------------------------------

/-
  The output is plain exactly if nothing that was set before
  disturbs it.
-/
theorem plain_iff
    (o : OStream) (style : NumStyle) (num width : UInt64)
    (showBase : Bool) :
    Plain o style num width showBase ↔
      Undisturbed o style num width showBase := by
  have hAfter := after_eq o style num width showBase
  have hLength :
      (numberPart o style num width).length =
        max (fieldWidth width)
          (digitCount o style num + ownPrefix o style num) := by
    unfold numberPart
    rw [length_padNumber, List.length_append, length_ownText,
      Nat.add_comm]
    rfl
  have hLe :
      (digitText style.base o.flags.uppercase
          num.toNat).length ≤
        (numberPart o style num width).length := by
    have hCount :
        digitCount o style num =
          (digitText style.base o.flags.uppercase
            num.toNat).length := rfl
    omega
  have hText :
      (after o style num width showBase).text =
          o.text ++ plainText o style num width showBase ↔
        Undisturbed o style num width showBase := by
    have hTotal :
        width.toNat - digitCount o style num +
            digitCount o style num =
          max width.toNat (digitCount o style num) := by
      omega
    rw [hAfter]
    unfold plainText padded
    rw [List.append_cancel_left_eq,
      paddedBase_append_eq_iff o style showBase _ hLe]
    have hNumber := numberPart_eq_iff o style num width
    unfold digitCount at hNumber hTotal
    rw [hNumber, hTotal, hLength]
    constructor
    · rintro ⟨hZeros, hSum, hDigits⟩
      exact
        { digits := hDigits
          zeros := hZeros
          total := hSum }
    · intro hUndisturbed
      exact
        ⟨hUndisturbed.zeros, hUndisturbed.total,
          hUndisturbed.digits⟩
  constructor
  · intro hPlain
    exact hText.mp hPlain.text
  · intro hUndisturbed
    have hPlainText := hText.mpr hUndisturbed
    rcases style.base_bounds with ⟨hLow, hHigh⟩
    refine
      { text := hPlainText
        parsed := ?_
        flags := by rw [hAfter]
        fill := by rw [hAfter] }
    rw [hPlainText]
    unfold plainText
    rw [← List.append_assoc, List.drop_left]
    exact parse_padded hLow hHigh _ _ _

/-
  For widths that an `int` can hold, the prefix must not be
  padded, and an octal zero of the stream must fit in.
-/
theorem undisturbed_iff_of_small
    (o : OStream) (style : NumStyle) (num width : UInt64)
    (showBase : Bool) (hSmall : width.toNat < 2 ^ 31) :
    Undisturbed o style num width showBase ↔
      (num = 0 ∨
        (style = .hex → o.flags.showbase = false) ∧
          (o.flags.isLeft = true →
            width.toNat ≤
              digitCount o style num +
                ownPrefix o style num)) ∧
        prefixPadding o showBase = 0 ∧
        (ownPrefix o style num = 0 ∨
          digitCount o style num + ownPrefix o style num ≤
            width.toNat) := by
  have hField : fieldWidth width = width.toNat := by
    unfold fieldWidth
    have hLow : width.toUInt32.toNat = width.toNat := by
      rw [UInt64.toNat_toUInt32]
      omega
    have hSigned :
        width.toUInt32.toInt32.toInt =
          (width.toUInt32.toNat : Int) := by
      refine BitVec.toInt_eq_toNat_of_lt ?_
      have hBits :
          width.toUInt32.toInt32.toBitVec.toNat =
            width.toUInt32.toNat := rfl
      omega
    rw [hSigned, hLow, Int.toNat_natCast]
  constructor
  · intro hUndisturbed
    have hTotal := hUndisturbed.total
    have hDigits := hUndisturbed.digits
    rw [hField] at hTotal hDigits
    exact ⟨hDigits, by omega, by omega⟩
  · rintro ⟨hDigits, hNone, hOwn⟩
    refine
      { digits := hField ▸ hDigits
        zeros := fun hPos => ?_
        total := ?_ }
    · omega
    · rw [hField, hNone]
      omega

/- A stream after `std::left`. -/
def leftStream : OStream where
  flags :=
    { left := true
      right := false
      internal := false
      dec := true
      oct := false
      hex := false
      showbase := false
      uppercase := false
      others := 0 }
  fill := 32
  width := 0
  text := []

/-
  With left adjustment the zeros come behind the digits, and
  the text means another number.
-/
theorem not_plain_left :
    ¬ Plain leftStream .hex 16 4 true ∧
      (after leftStream .hex 16 4 true).text =
        str "0x1000" := by
  have hText :
      (after leftStream .hex 16 4 true).text =
        str "0x1000" := by
    decide
  refine ⟨fun hPlain => ?_, hText⟩
  have hParsed := hPlain.parsed
  rw [hText] at hParsed
  exact absurd hParsed (by decide)

end FormattedNumber

end Cosmos
