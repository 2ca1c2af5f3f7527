import LibCosmos.Foundation.Numerals

/-
  Devices that show characters, except for control
  sequences: an escape character, a bracket, numbers that
  are separated by semicolons, and a letter. The letter `m`
  makes each number change the attributes that characters
  are shown with; what a number means is up to the device.

  Main declarations:
    * `Escape.Device`, `Escape.feed`
    * `Escape.command`
    * `Escape.feed_plain`, `Escape.feed_command`
    * `Escape.Device.characters`
-/

namespace Escape

open Numerals

------------------------------------------------------------
-- Devices
------------------------------------------------------------

/- How far a control sequence has been read. -/
inductive Mode where
| ground
| escape
| sequence (done : List Nat) (current : Nat)
deriving DecidableEq, Repr

/- `shown` are the characters with their attributes. -/
structure Device (A : Type) where
  mode : Mode
  attrs : A
  shown : List (UInt8 × A)
deriving DecidableEq, Repr

variable {A : Type} (meaning : Nat → A → A)

def apply (codes : List Nat) (attrs : A) : A :=
  codes.foldl (fun a code => meaning code a) attrs

@[simp] theorem apply_nil (attrs : A) :
    apply meaning [] attrs = attrs :=
  rfl

@[simp] theorem apply_cons
    (code : Nat) (codes : List Nat) (attrs : A) :
    apply meaning (code :: codes) attrs =
      apply meaning codes (meaning code attrs) :=
  rfl

def feedByte (d : Device A) (c : UInt8) : Device A :=
  match d.mode with
  | .ground =>
      if c = 27 then { d with mode := .escape }
      else { d with shown := d.shown ++ [(c, d.attrs)] }
  | .escape =>
      if c = 91 then { d with mode := .sequence [] 0 }
      else if c = 27 then d
      else { d with mode := .ground }
  | .sequence done current =>
      if 48 ≤ c ∧ c ≤ 57 then
        { d with mode :=
          .sequence done (current * 10 + (c - 48).toNat) }
      else if c = 59 then
        { d with mode := .sequence (done ++ [current]) 0 }
      else if c = 109 then
        { d with
          mode := .ground
          attrs := apply meaning (done ++ [current]) d.attrs }
      -- any other final character ends another command
      else if 64 ≤ c ∧ c ≤ 126 then { d with mode := .ground }
      else d

def feed (d : Device A) (text : List UInt8) : Device A :=
  text.foldl (feedByte meaning) d

@[simp] theorem feed_nil (d : Device A) :
    feed meaning d [] = d :=
  rfl

@[simp] theorem feed_cons
    (d : Device A) (c : UInt8) (text : List UInt8) :
    feed meaning d (c :: text) =
      feed meaning (feedByte meaning d c) text :=
  rfl

theorem feed_append
    (d : Device A) (s t : List UInt8) :
    feed meaning d (s ++ t) =
      feed meaning (feed meaning d s) t :=
  List.foldl_append

/- The device at the start of a text. -/
def Device.ready (attrs : A) : Device A where
  mode := .ground
  attrs := attrs
  shown := []

/- The characters that are shown, without attributes. -/
def Device.characters (d : Device A) : List UInt8 :=
  d.shown.map Prod.fst

------------------------------------------------------------
-- Text and Commands
------------------------------------------------------------

/- A text without escape characters. -/
def Plain (text : List UInt8) : Prop :=
  ∀ c ∈ text, c ≠ 27

instance (text : List UInt8) : Decidable (Plain text) :=
  List.decidableBAll (fun c => c ≠ 27) text

/- Characters with the attributes they are shown with. -/
def cells (attrs : A) (text : List UInt8) :
    List (UInt8 × A) :=
  text.map fun c => (c, attrs)

@[simp] theorem characters_cells
    (attrs : A) (text : List UInt8) :
    (cells attrs text).map Prod.fst = text := by
  simp [cells, Function.comp_def]

theorem feed_plain
    {text : List UInt8} (hPlain : Plain text) (attrs : A)
    (shown : List (UInt8 × A)) :
    feed meaning ⟨.ground, attrs, shown⟩ text =
      ⟨.ground, attrs, shown ++ cells attrs text⟩ := by
  induction text generalizing shown with
  | nil => simp [cells]
  | cons c text ih =>
      have hChar : c ≠ 27 := hPlain c List.mem_cons_self
      have hRest : Plain text := fun x hMem =>
        hPlain x (List.mem_cons_of_mem c hMem)
      have hStep :
          feedByte meaning ⟨.ground, attrs, shown⟩ c =
            ⟨.ground, attrs, shown ++ [(c, attrs)]⟩ := by
        simp only [feedByte, if_neg hChar]
      rw [feed_cons, hStep, ih hRest, List.append_assoc]
      rfl

/- The control sequence with some numbers. -/
def command (codes : List Nat) : List UInt8 :=
  [27, 91] ++
    List.intercalate [59]
      (codes.map (digitText 10 false)) ++ [109]

/- A digit goes on with the current number. -/
theorem feedByte_digit
    {c : UInt8} {d : Nat}
    (hValue : digitValue c = some d) (hSmall : d < 10)
    (attrs : A) (shown : List (UInt8 × A))
    (done : List Nat) (current : Nat) :
    feedByte meaning ⟨.sequence done current, attrs, shown⟩
        c =
      ⟨.sequence done (current * 10 + d), attrs, shown⟩ := by
  unfold digitValue at hValue
  split_ifs at hValue with hDigit hUpper hLower
  · simp only [feedByte, if_pos hDigit,
      Option.some.inj hValue]
  · have hUpperValue := Option.some.inj hValue
    have hLe := UInt8.le_iff_toNat_le.mp hUpper.1
    have hTop := UInt8.le_iff_toNat_le.mp hUpper.2
    have hSub : (c - 55).toNat = c.toNat - 55 :=
      UInt8.toNat_sub_of_le _ _
        (UInt8.le_iff_toNat_le.mpr
          (le_trans (by decide) hLe))
    simp only [UInt8.reduceToNat] at hLe hTop
    omega
  · have hLowerValue := Option.some.inj hValue
    have hLe := UInt8.le_iff_toNat_le.mp hLower.1
    have hTop := UInt8.le_iff_toNat_le.mp hLower.2
    have hSub : (c - 87).toNat = c.toNat - 87 :=
      UInt8.toNat_sub_of_le _ _
        (UInt8.le_iff_toNat_le.mpr
          (le_trans (by decide) hLe))
    simp only [UInt8.reduceToNat] at hLe hTop
    omega

/- The digits of a number are read as the number. -/
theorem feed_of_parse
    (attrs : A) (shown : List (UInt8 × A)) (done : List Nat)
    {text : List UInt8} {acc n : Nat}
    (hParse : parseFrom 10 acc text = some n) :
    feed meaning ⟨.sequence done acc, attrs, shown⟩ text =
      ⟨.sequence done n, attrs, shown⟩ := by
  induction text generalizing acc with
  | nil =>
      rw [parseFrom, Option.some.injEq] at hParse
      rw [feed_nil, hParse]
  | cons c text ih =>
      rw [parseFrom] at hParse
      cases hValue : digitValue c with
      | none =>
          rw [hValue] at hParse
          exact absurd hParse (by simp)
      | some d =>
          rw [hValue] at hParse
          by_cases hSmall : d < 10
          · simp only [if_pos hSmall] at hParse
            rw [feed_cons,
              feedByte_digit meaning hValue hSmall]
            exact ih hParse
          · simp [hSmall] at hParse

theorem feed_digitText
    (attrs : A) (shown : List (UInt8 × A)) (done : List Nat)
    (n : Nat) :
    feed meaning ⟨.sequence done 0, attrs, shown⟩
        (digitText 10 false n) =
      ⟨.sequence done n, attrs, shown⟩ :=
  feed_of_parse meaning attrs shown done
    (parseFrom_digitText (by decide) (by decide) false n)

/- The numbers of a sequence and the letter behind them. -/
theorem feed_codes
    (attrs : A) (shown : List (UInt8 × A))
    (done : List Nat) (code : Nat) (codes : List Nat) :
    feed meaning ⟨.sequence done 0, attrs, shown⟩
        (List.intercalate [59]
            ((code :: codes).map (digitText 10 false)) ++
          [109]) =
      ⟨.ground,
        apply meaning (done ++ code :: codes) attrs,
        shown⟩ := by
  induction codes generalizing done code with
  | nil =>
      have hOne :
          List.intercalate [(59 : UInt8)]
              ([code].map (digitText 10 false)) =
            digitText 10 false code := by
        simp [List.intercalate]
      rw [hOne, feed_append, feed_digitText]
      rfl
  | cons next codes ih =>
      have hMore :
          List.intercalate [(59 : UInt8)]
              ((code :: next :: codes).map
                (digitText 10 false)) =
            digitText 10 false code ++
              59 :: List.intercalate [59]
                ((next :: codes).map (digitText 10 false)) := by
        simp [List.intercalate]
      have hSep :
          feedByte meaning
              ⟨.sequence done code, attrs, shown⟩ 59 =
            ⟨.sequence (done ++ [code]) 0, attrs, shown⟩ :=
        rfl
      rw [hMore, List.append_assoc, feed_append,
        feed_digitText, List.cons_append, feed_cons, hSep, ih,
        List.append_assoc]
      rfl

/- A command shows nothing and applies its numbers. -/
theorem feed_command
    {codes : List Nat} (hSome : codes ≠ []) (attrs : A)
    (shown : List (UInt8 × A)) :
    feed meaning ⟨.ground, attrs, shown⟩ (command codes) =
      ⟨.ground, apply meaning codes attrs, shown⟩ := by
  cases codes with
  | nil => exact absurd rfl hSome
  | cons code codes =>
      have hCodes :=
        feed_codes meaning attrs shown [] code codes
      rw [List.nil_append] at hCodes
      rw [← hCodes]
      rfl

end Escape
