import Mathlib.Data.Nat.Digits.Lemmas

/-
  Numbers as text in a base up to 16, with leading zeros or
  without, and what the text is read as.

  Main declarations:
    * `Numerals.digitText`, `Numerals.padded`
    * `Numerals.parse`
    * `Numerals.parse_padded`
    * `Numerals.digitText_cons`
    * `Numerals.fill_append_eq_iff`
-/

namespace Numerals

------------------------------------------------------------
-- Digits
------------------------------------------------------------

/- The character of a digit. -/
def digitChar (upper : Bool) (d : Nat) : UInt8 :=
  if d < 10 then 48 + UInt8.ofNat d
  else if upper then 55 + UInt8.ofNat d
  else 87 + UInt8.ofNat d

def digitValue (c : UInt8) : Option Nat :=
  if 48 ≤ c ∧ c ≤ 57 then some (c - 48).toNat
  else if 65 ≤ c ∧ c ≤ 70 then some (c - 55).toNat
  else if 97 ≤ c ∧ c ≤ 102 then some (c - 87).toNat
  else none

theorem digitValue_digitChar
    (upper : Bool) {d : Nat} (hSmall : d < 16) :
    digitValue (digitChar upper d) = some d := by
  have hAll :
      ∀ (u : Bool) (k : Fin 16),
        digitValue (digitChar u k) = some k.val := by
    decide
  exact hAll upper ⟨d, hSmall⟩

/- Only the digit zero has the character zero. -/
theorem digitChar_ne_zero
    (upper : Bool) {d : Nat}
    (hSmall : d < 16) (hNonzero : d ≠ 0) :
    digitChar upper d ≠ 48 := by
  intro hZero
  have hValue := digitValue_digitChar upper hSmall
  rw [hZero] at hValue
  exact hNonzero (Option.some.inj hValue).symm

------------------------------------------------------------
-- Numbers
------------------------------------------------------------

/- The digits of a number, the highest one first. -/
def digitText (base : Nat) (upper : Bool) (n : Nat) :
    List UInt8 :=
  if n = 0 then [48]
  else (Nat.digits base n).reverse.map (digitChar upper)

/- With zeros in front up to a width. -/
def padded
    (base : Nat) (upper : Bool) (width n : Nat) :
    List UInt8 :=
  List.replicate
      (width - (digitText base upper n).length) 48 ++
    digitText base upper n

/- Read digits behind others that make a number so far. -/
def parseFrom (base : Nat) : Nat → List UInt8 → Option Nat
| acc, [] => some acc
| acc, c :: cs =>
    match digitValue c with
    | none => none
    | some d =>
        if d < base then parseFrom base (acc * base + d) cs
        else none

def parse (base : Nat) : List UInt8 → Option Nat
| [] => none
| c :: cs => parseFrom base 0 (c :: cs)

section Base

variable {base : Nat} (hLow : 2 ≤ base) (hHigh : base ≤ 16)
variable (upper : Bool)

include hHigh in
theorem parseFrom_map
    {ds : List Nat} (hDigits : ∀ d ∈ ds, d < base)
    (acc : Nat) :
    parseFrom base acc (ds.map (digitChar upper)) =
      some (ds.foldl (fun a d => a * base + d) acc) := by
  induction ds generalizing acc with
  | nil => rfl
  | cons d ds ih =>
      have hDigit : d < base := hDigits d List.mem_cons_self
      have hValue :=
        digitValue_digitChar upper (hDigit.trans_le hHigh)
      have hRest : ∀ d ∈ ds, d < base := fun d hMem =>
        hDigits d (List.mem_cons_of_mem _ hMem)
      simp only [List.map_cons, parseFrom, hValue,
        if_pos hDigit, ih hRest, List.foldl_cons]

include hLow in
/- Leading zeros do not count. -/
theorem parseFrom_zeros
    (k : Nat) (text : List UInt8) :
    parseFrom base 0 (List.replicate k 48 ++ text) =
      parseFrom base 0 text := by
  have hZero : digitValue 48 = some 0 := rfl
  have hDigit : 0 < base := by omega
  induction k with
  | zero => rfl
  | succ k ih =>
      rw [List.replicate_succ, List.cons_append, parseFrom]
      simp only [hZero, if_pos hDigit, Nat.zero_mul,
        Nat.zero_add, ih]

include hLow hHigh in
theorem parseFrom_digitText (n : Nat) :
    parseFrom base 0 (digitText base upper n) = some n := by
  unfold digitText
  by_cases hZero : n = 0
  · have hValue : digitValue 48 = some 0 := rfl
    have hDigit : 0 < base := by omega
    rw [if_pos hZero, parseFrom]
    simp only [hValue, if_pos hDigit, parseFrom, hZero,
      Nat.zero_mul, Nat.zero_add]
  · rw [if_neg hZero,
      parseFrom_map hHigh upper
        (fun d hMem =>
          Nat.digits_lt_base hLow (List.mem_reverse.mp hMem)),
      List.foldl_reverse]
    refine congrArg some ?_
    have hDigits := Nat.ofDigits_digits base n
    rw [Nat.ofDigits_eq_foldr] at hDigits
    refine Eq.trans ?_ hDigits
    refine congrArg (fun f => List.foldr f 0 _) ?_
    funext d a
    rw [Nat.add_comm, Nat.mul_comm]
    rfl

theorem digitText_ne_nil
    (base : Nat) (upper : Bool) (n : Nat) :
    digitText base upper n ≠ [] := by
  unfold digitText
  by_cases hZero : n = 0
  · rw [if_pos hZero]
    exact List.cons_ne_nil _ _
  · rw [if_neg hZero, ne_eq, List.map_eq_nil_iff,
      List.reverse_eq_nil_iff]
    exact Nat.digits_ne_nil_iff_ne_zero.mpr hZero

include hLow hHigh in
/- The text means the number, whatever its width is. -/
theorem parse_padded (width n : Nat) :
    parse base (padded base upper width n) = some n := by
  have hText := digitText_ne_nil base upper n
  have hValue :
      parseFrom base 0 (padded base upper width n) =
        some n := by
    unfold padded
    rw [parseFrom_zeros hLow,
      parseFrom_digitText hLow hHigh upper n]
  cases hCases : padded base upper width n with
  | nil =>
      unfold padded at hCases
      exact absurd (List.append_eq_nil_iff.mp hCases).2 hText
  | cons c cs => rw [← hValue, hCases, parse]

include hLow hHigh in
/- A number that is not zero has no leading zero. -/
theorem digitText_cons
    {n : Nat} (hNonzero : n ≠ 0) :
    ∃ c cs, digitText base upper n = c :: cs ∧ c ≠ 48 := by
  have hNe : Nat.digits base n ≠ [] :=
    Nat.digits_ne_nil_iff_ne_zero.mpr hNonzero
  have hSmall :=
    Nat.digits_lt_base hLow (List.getLast_mem hNe)
  refine
    ⟨digitChar upper ((Nat.digits base n).getLast hNe),
      (Nat.digits base n).dropLast.reverse.map
        (digitChar upper),
      ?_, ?_⟩
  · unfold digitText
    rw [if_neg hNonzero, ← List.map_cons,
      ← List.reverse_concat,
      List.dropLast_append_getLast hNe]
  · exact
      digitChar_ne_zero upper (hSmall.trans_le hHigh)
        (Nat.getLast_digit_ne_zero base hNonzero)

include hLow hHigh in
theorem digitText_zero_or (n : Nat) :
    digitText base upper n = [48] ∨
      ∃ c cs, digitText base upper n = c :: cs ∧ c ≠ 48 := by
  by_cases hZero : n = 0
  · exact Or.inl (if_pos hZero)
  · exact Or.inr (digitText_cons hLow hHigh upper hZero)

include hLow hHigh in
theorem digitText_eq_zero_iff {n : Nat} :
    digitText base upper n = [48] ↔ n = 0 := by
  constructor
  · intro hText
    by_contra hNonzero
    rcases digitText_cons hLow hHigh upper hNonzero with
      ⟨c, cs, hCons, hHead⟩
    rw [hText] at hCons
    exact hHead (List.cons.inj hCons).1.symm
  · intro hZero
    exact if_pos hZero

include hLow hHigh in
/- All characters are digits. -/
theorem digitValue_of_mem
    {n : Nat} {c : UInt8}
    (hMem : c ∈ digitText base upper n) :
    digitValue c ≠ none := by
  unfold digitText at hMem
  by_cases hZero : n = 0
  · rw [if_pos hZero, List.mem_singleton] at hMem
    rw [hMem]
    decide
  · rw [if_neg hZero, List.mem_map] at hMem
    rcases hMem with ⟨d, hDigit, rfl⟩
    have hSmall :=
      Nat.digits_lt_base hLow (List.mem_reverse.mp hDigit)
    rw [digitValue_digitChar upper (hSmall.trans_le hHigh)]
    exact Option.some_ne_none d

end Base

------------------------------------------------------------
-- Padding
------------------------------------------------------------

/-
  Padding in front of a text gives zeros and digits if it is
  zeros itself, if it is as long as it has to be, and if the
  text is zeros and digits.
-/
theorem fill_append_eq_iff
    {α : Type} (zero fill : α) (k j : Nat)
    {text ds : List α} (hLe : ds.length ≤ text.length) :
    List.replicate k fill ++ text =
        List.replicate j zero ++ ds ↔
      (0 < k → fill = zero) ∧
        k + text.length = j + ds.length ∧
        text =
          List.replicate (text.length - ds.length) zero ++
            ds := by
  constructor
  · intro hEq
    have hLength := congrArg List.length hEq
    simp only [List.length_append, List.length_replicate]
      at hLength
    have hMore : j = k + (text.length - ds.length) := by
      omega
    rw [hMore, List.replicate_add, List.append_assoc] at hEq
    rcases List.append_inj hEq (by simp) with ⟨hFill, hText⟩
    refine ⟨?_, hLength, hText⟩
    intro hPos
    exact
      (List.replicate_right_inj (Nat.ne_of_gt hPos)).mp hFill
  · rintro ⟨hFill, hLength, hText⟩
    have hMore : j = k + (text.length - ds.length) := by
      omega
    have hSame :
        List.replicate k fill = List.replicate k zero := by
      cases k with
      | zero => rfl
      | succ k => rw [hFill (Nat.succ_pos k)]
    rw [hMore, List.replicate_add, List.append_assoc,
      ← hText, hSame]

end Numerals
