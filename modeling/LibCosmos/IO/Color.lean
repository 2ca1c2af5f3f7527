import LibCosmos.Core.OStream
import LibCosmos.FS.FileDescriptor
import LibCosmos.Foundation.Escape

/-
  Markup for terminals: colours and text effects that are
  printed with control sequences around a text, if the
  stream belongs to a terminal.

  The terminal is a device with the attributes of the SGR
  sequences that the library uses. On a terminal a nested
  feature shows its text with all effects on and then takes
  each of them off again, which brings the attributes back
  iff none of the effects was on before. What the user can
  read is what goes to a file.

  Main declarations:
    * `FeatureBase`, `Color.putFeature`
    * `Color.refreshTTYDetection`
    * `Color.meaning`
    * `Color.feature_displayed`
    * `Color.session_visible`
-/

namespace Cosmos

open Escape Numerals

------------------------------------------------------------
-- Colours and Controls
------------------------------------------------------------

inductive TermColor where
| black
| red
| green
| yellow
| blue
| magenta
| cyan
| white
deriving DecidableEq, Repr

def TermColor.raw : TermColor → UInt64
| black => 0
| red => 1
| green => 2
| yellow => 3
| blue => 4
| magenta => 5
| cyan => 6
| white => 7

inductive ColorKind where
| front
| back
deriving DecidableEq, Repr

inductive ColorIntensity where
| normal
| bright
deriving DecidableEq, Repr

structure ColorSpec where
  mColor : TermColor
  mKind : ColorKind
  mIntensity : ColorIntensity
deriving DecidableEq, Repr

inductive TermControl where
| reset
| underlineOn
| underlineOff
| blinkOn
| blinkOff
| inverseOn
| inverseOff
| defaultFgColor
| defaultBgColor
deriving DecidableEq, Repr

def TermControl.raw : TermControl → UInt64
| reset => 0
| underlineOn => 4
| underlineOff => 24
| blinkOn => 5
| blinkOff => 25
| inverseOn => 7
| inverseOff => 27
| defaultFgColor => 39
| defaultBgColor => 49

/- A generic code, an `enum class : size_t`. -/
abbrev ANSICode := UInt64

def getAnsiColorCode (color : ColorSpec) : ANSICode :=
  let code : UInt64 := if color.mKind = .front then 30 else 40
  let code :=
    if color.mIntensity = .bright then code + 60 else code
  code + color.mColor.raw

def getOffControl : TermControl → Except Exn TermControl
| .underlineOn => .ok .underlineOff
| .blinkOn => .ok .blinkOff
| .inverseOn => .ok .inverseOff
| _ => .error (.usageError (str "bad value"))

/- `std::to_string` and the separator behind it. -/
def codeText (cmd : ANSICode) : Str :=
  digitText 10 false cmd.toNat ++ [59]

/- The last separator is removed again. -/
def buildAnsiCommand (cmdList : List ANSICode) : Str :=
  ([27, 91] ++ cmdList.flatMap codeText).dropLast ++ [109]

/-
  A text with an effect, or an effect around another
  feature; the variant of the source is in the constructor.
-/
inductive FeatureBase where
| text (text : Str) (onCode offCode : ANSICode)
| nested (next : FeatureBase) (onCode offCode : ANSICode)
deriving DecidableEq, Repr

namespace FeatureBase

def getOnCode : FeatureBase → ANSICode
| text _ onCode _ => onCode
| nested _ onCode _ => onCode

def getOffCode : FeatureBase → ANSICode
| text _ _ offCode => offCode
| nested _ _ offCode => offCode

/- `std::get` throws if there is another feature instead. -/
def getText : FeatureBase → Except Exn Str
| text s _ _ => .ok s
| nested _ _ _ =>
    .error
      (.stdException
        (str "std::get: wrong index for variant"))

def hasNextFeature : FeatureBase → Bool
| text _ _ _ => false
| nested _ _ _ => true

def getFeatures : FeatureBase → List FeatureBase
| text s onCode offCode => [text s onCode offCode]
| nested next onCode offCode =>
    nested next onCode offCode :: next.getFeatures

end FeatureBase

/- What a feature is put around. -/
inductive Info where
| text (text : Str)
| feature (next : FeatureBase)

def Info.base (info : Info) (onCode offCode : ANSICode) :
    FeatureBase :=
  match info with
  | .text s => .text s onCode offCode
  | .feature next => .nested next onCode offCode

def textEffect (feature : TermControl) (info : Info) :
    Except Exn FeatureBase := do
  let off ← getOffControl feature
  pure (info.base feature.raw off.raw)

def coloredText (spec : ColorSpec) (info : Info) :
    FeatureBase :=
  let off : TermControl :=
    if spec.mKind = .front then .defaultFgColor
    else .defaultBgColor
  info.base (getAnsiColorCode spec) off.raw

namespace Color

------------------------------------------------------------
-- Output
------------------------------------------------------------

/- Which of the standard buffers a stream has. -/
inductive Buf where
| cout
| cerr
| other
deriving DecidableEq, Repr

/- The globals that say whether the streams are terminals. -/
structure Detection where
  stdoutIsTTY : Bool
  stderrIsTTY : Bool
deriving DecidableEq, Repr

def isTTYStream (d : Detection) : Buf → Bool
| .cout => d.stdoutIsTTY
| .cerr => d.stderrIsTTY
| .other => false

def putColorSpec (tty : Bool) (o : OStream)
    (fc : ColorSpec) : OStream :=
  if !tty then o
  else o.putString (buildAnsiCommand [getAnsiColorCode fc])

def putControl (tty : Bool) (o : OStream)
    (p : TermControl) : OStream :=
  if !tty then o
  else o.putString (buildAnsiCommand [p.raw])

/- The last feature of the list, which is never empty. -/
def backText (features : List FeatureBase) :
    Except Exn Str :=
  match features.getLast? with
  | some feature => feature.getText
  | none => .error .nonStd

def putFeature (tty : Bool) (o : OStream)
    (fb : FeatureBase) : Except Exn OStream := do
  if !tty then
    if !fb.hasNextFeature then
      pure (o.putString (← fb.getText))
    else
      pure (o.putString (← backText fb.getFeatures))
  else if !fb.hasNextFeature then
    pure
      (((o.putString
            (buildAnsiCommand [fb.getOnCode])).putString
          (← fb.getText)).putString
        (buildAnsiCommand [fb.getOffCode]))
  else
    let features := fb.getFeatures
    let onCodes := features.map FeatureBase.getOnCode
    let offCodes := features.map FeatureBase.getOffCode
    pure
      (((o.putString (buildAnsiCommand onCodes)).putString
          (← backText features)).putString
        (buildAnsiCommand offCodes))

/- The environment variables that override the check. -/
def forceOn : Str := str "COSMOS_FORCE_COLOR_ON"
def forceOff : Str := str "COSMOS_FORCE_COLOR_OFF"

def notATty : Errno := ⟨25⟩

/- `Terminal::isTTY` with the answer of `isatty`. -/
def isTTY {σ η : Type} (answer : Sys Unit) :
    Command σ η Exn Bool :=
  match answer with
  | .ok () => pure true
  | .error e =>
      if e = notATty then pure false
      else .raise (.apiError e (str "isatty:"))

def refreshTTYDetection {η : Type}
    (getEnvVar : Str → Option Str)
    (output error : Sys Unit) :
    Command Detection η Exn Unit := do
  if (getEnvVar forceOn).isSome then
    .modify fun _ => ⟨true, true⟩
  else if (getEnvVar forceOff).isSome then
    .modify fun _ => ⟨false, false⟩
  else
    let outputIsTTY ← isTTY output
    .modify fun d => { d with stdoutIsTTY := outputIsTTY }
    let errorIsTTY ← isTTY error
    .modify fun d => { d with stderrIsTTY := errorIsTTY }

------------------------------------------------------------
-- Terminals
------------------------------------------------------------

/- `none` and `false` are the defaults of the terminal. -/
structure Attrs where
  front : Option (TermColor × ColorIntensity)
  back : Option (TermColor × ColorIntensity)
  underline : Bool
  blink : Bool
  inverse : Bool
deriving DecidableEq, Repr

def Attrs.default : Attrs where
  front := none
  back := none
  underline := false
  blink := false
  inverse := false

/- What a terminal can be told about the characters. -/
inductive Aspect where
| front
| back
| underline
| blink
| inverse
deriving DecidableEq, Repr

namespace Attrs

/- Bring an aspect to its default. -/
def unset (a : Attrs) : Aspect → Attrs
| .front => { a with front := none }
| .back => { a with back := none }
| .underline => { a with underline := false }
| .blink => { a with blink := false }
| .inverse => { a with inverse := false }

def IsUnset (a : Attrs) : Aspect → Prop
| .front => a.front = none
| .back => a.back = none
| .underline => a.underline = false
| .blink => a.blink = false
| .inverse => a.inverse = false

theorem isUnset_default (x : Aspect) : default.IsUnset x := by
  cases x <;> rfl

theorem isUnset_unset (a : Attrs) (x : Aspect) :
    (a.unset x).IsUnset x := by
  cases x <;> rfl

theorem unset_of_isUnset
    {a : Attrs} {x : Aspect} (hUnset : a.IsUnset x) :
    a.unset x = a := by
  rcases a with ⟨front, back, underline, blink, inverse⟩
  cases x <;> (cases hUnset; rfl)

theorem IsUnset.unset
    {a : Attrs} {x : Aspect} (hUnset : a.IsUnset x)
    (y : Aspect) : (a.unset y).IsUnset x := by
  cases x <;> cases y <;> first | rfl | exact hUnset

end Attrs

def colorAt : Nat → TermColor
| 0 => .black
| 1 => .red
| 2 => .green
| 3 => .yellow
| 4 => .blue
| 5 => .magenta
| 6 => .cyan
| _ => .white

/- The SGR codes; a terminal ignores what it does not know. -/
def meaning (code : Nat) (a : Attrs) : Attrs :=
  if code = 0 then .default
  else if code = 4 then { a with underline := true }
  else if code = 24 then { a with underline := false }
  else if code = 5 then { a with blink := true }
  else if code = 25 then { a with blink := false }
  else if code = 7 then { a with inverse := true }
  else if code = 27 then { a with inverse := false }
  else if code = 39 then { a with front := none }
  else if code = 49 then { a with back := none }
  else if 30 ≤ code ∧ code ≤ 37 then
    { a with front := some (colorAt (code - 30), .normal) }
  else if 90 ≤ code ∧ code ≤ 97 then
    { a with front := some (colorAt (code - 90), .bright) }
  else if 40 ≤ code ∧ code ≤ 47 then
    { a with back := some (colorAt (code - 40), .normal) }
  else if 100 ≤ code ∧ code ≤ 107 then
    { a with back := some (colorAt (code - 100), .bright) }
  else a

------------------------------------------------------------
-- Effects
------------------------------------------------------------

/-
  What is put around a text: `TextEffectT` with any control
  as its argument, or `ColoredTextT` and `TextOnColorT`.
-/
inductive Effect where
| control (c : TermControl)
| color (spec : ColorSpec)
deriving DecidableEq, Repr

namespace Effect

def construct : Effect → Info → Except Exn FeatureBase
| control c, info => textEffect c info
| color spec, info => .ok (coloredText spec info)

/- Controls that another control takes off again. -/
def Supported : Effect → Prop
| control c => c = .underlineOn ∨ c = .blinkOn ∨ c = .inverseOn
| color _ => True

instance (e : Effect) : Decidable e.Supported := by
  cases e <;> unfold Supported <;> infer_instance

def turnOn : Effect → Attrs → Attrs
| control .underlineOn, a => { a with underline := true }
| control .blinkOn, a => { a with blink := true }
| control .inverseOn, a => { a with inverse := true }
| control _, a => a
| color ⟨c, .front, i⟩, a => { a with front := some (c, i) }
| color ⟨c, .back, i⟩, a => { a with back := some (c, i) }

def aspect : Effect → Option Aspect
| control .underlineOn => some .underline
| control .blinkOn => some .blink
| control .inverseOn => some .inverse
| control _ => none
| color ⟨_, .front, _⟩ => some .front
| color ⟨_, .back, _⟩ => some .back

def takeOff (e : Effect) (a : Attrs) : Attrs :=
  match e.aspect with
  | some x => a.unset x
  | none => a

/- The terminal has the default where the effect is. -/
def Absent (e : Effect) (a : Attrs) : Prop :=
  ∀ x, e.aspect = some x → a.IsUnset x

def onCode : Effect → ANSICode
| control c => c.raw
| color spec => getAnsiColorCode spec

def offCode : Effect → ANSICode
| control .underlineOn => TermControl.underlineOff.raw
| control .blinkOn => TermControl.blinkOff.raw
| control .inverseOn => TermControl.inverseOff.raw
| control c => c.raw
| color ⟨_, .front, _⟩ => TermControl.defaultFgColor.raw
| color ⟨_, .back, _⟩ => TermControl.defaultBgColor.raw

theorem construct_of_supported
    {e : Effect} (hSupported : e.Supported) (info : Info) :
    e.construct info =
      .ok (info.base e.onCode e.offCode) := by
  cases e with
  | control c =>
      rcases hSupported with rfl | rfl | rfl <;> rfl
  | color spec =>
      rcases spec with ⟨c, kind, i⟩
      cases kind <;> rfl

theorem construct_of_not_supported
    {e : Effect} (hNot : ¬ e.Supported) (info : Info) :
    e.construct info =
      .error (.usageError (str "bad value")) := by
  cases e with
  | control c =>
      cases c <;> first | rfl | exact absurd (by decide) hNot
  | color spec => exact absurd trivial hNot

/- The codes mean what the effect is about. -/
theorem meaning_onCode
    {e : Effect} (hSupported : e.Supported) (a : Attrs) :
    meaning e.onCode.toNat a = e.turnOn a := by
  cases e with
  | control c =>
      rcases hSupported with rfl | rfl | rfl <;> rfl
  | color spec =>
      rcases spec with ⟨c, kind, i⟩
      cases c <;> cases kind <;> cases i <;> rfl

theorem meaning_offCode
    {e : Effect} (hSupported : e.Supported) (a : Attrs) :
    meaning e.offCode.toNat a = e.takeOff a := by
  cases e with
  | control c =>
      rcases hSupported with rfl | rfl | rfl <;> rfl
  | color spec =>
      rcases spec with ⟨c, kind, i⟩
      cases kind <;> rfl

theorem absent_takeOff (e : Effect) (a : Attrs) :
    e.Absent (e.takeOff a) := by
  intro x hAspect
  unfold takeOff
  rw [hAspect]
  exact Attrs.isUnset_unset a x

theorem takeOff_of_absent
    {e : Effect} {a : Attrs} (hAbsent : e.Absent a) :
    e.takeOff a = a := by
  unfold takeOff
  cases hAspect : e.aspect with
  | none => rfl
  | some x =>
      exact Attrs.unset_of_isUnset (hAbsent x hAspect)

/- Taking one effect off brings no other one back. -/
theorem Absent.takeOff
    {e : Effect} {a : Attrs} (hAbsent : e.Absent a)
    (e' : Effect) : e.Absent (e'.takeOff a) := by
  intro x hAspect
  unfold Effect.takeOff
  cases e'.aspect with
  | none => exact hAbsent x hAspect
  | some y => exact (hAbsent x hAspect).unset y

end Effect

/- All effects of a feature, the outermost one first. -/
def turnAllOn (es : List Effect) (a : Attrs) : Attrs :=
  es.foldl (fun a e => e.turnOn a) a

def takeAllOff (es : List Effect) (a : Attrs) : Attrs :=
  es.foldl (fun a e => e.takeOff a) a

theorem absent_takeAllOff
    {e : Effect} (es : List Effect) {a : Attrs}
    (hAbsent : e.Absent a) :
    e.Absent (takeAllOff es a) := by
  induction es generalizing a with
  | nil => exact hAbsent
  | cons e' es ih => exact ih (hAbsent.takeOff e')

theorem absent_of_mem
    {e : Effect} {es : List Effect} (hMem : e ∈ es)
    (a : Attrs) : e.Absent (takeAllOff es a) := by
  induction es generalizing a with
  | nil => exact absurd hMem List.not_mem_nil
  | cons e' es ih =>
      rcases List.mem_cons.mp hMem with rfl | hRest
      · exact absent_takeAllOff es (e.absent_takeOff a)
      · exact ih hRest (e'.takeOff a)

/- The attributes stay iff no effect was on. -/
theorem takeAllOff_eq_iff (es : List Effect) (a : Attrs) :
    takeAllOff es a = a ↔ ∀ e ∈ es, e.Absent a := by
  constructor
  · intro hSame e hMem
    rw [← hSame]
    exact absent_of_mem hMem a
  · intro hAbsent
    induction es with
    | nil => rfl
    | cons e es ih =>
        have hFirst : e.takeOff a = a :=
          Effect.takeOff_of_absent
            (hAbsent e List.mem_cons_self)
        change takeAllOff es (e.takeOff a) = a
        rw [hFirst]
        exact ih fun e' hMem =>
          hAbsent e' (List.mem_cons_of_mem e hMem)

/- An effect changes one aspect, which is unset or not. -/
theorem unset_turnOn
    (e : Effect) (a : Attrs) (x : Aspect) :
    (e.turnOn a).unset x = a.unset x ∨
      (e.turnOn a).unset x = e.turnOn (a.unset x) := by
  rcases e with c | ⟨c, kind, i⟩
  · cases c <;> cases x <;>
      first | exact Or.inl rfl | exact Or.inr rfl
  · cases kind <;> cases x <;>
      first | exact Or.inl rfl | exact Or.inr rfl

theorem takeOff_turnOn (x e : Effect) (a : Attrs) :
    x.takeOff (e.turnOn a) = x.takeOff a ∨
      x.takeOff (e.turnOn a) = e.turnOn (x.takeOff a) := by
  unfold Effect.takeOff
  cases x.aspect with
  | none => exact Or.inr rfl
  | some y => exact unset_turnOn e a y

theorem takeOff_turnOn_self (e : Effect) (a : Attrs) :
    e.takeOff (e.turnOn a) = e.takeOff a := by
  rcases e with c | ⟨c, kind, i⟩
  · cases c <;> rfl
  · cases kind <;> rfl

/- It does not matter whether an effect was turned on. -/
theorem takeAllOff_turnOn
    {e : Effect} {es : List Effect} (hMem : e ∈ es)
    (a : Attrs) :
    takeAllOff es (e.turnOn a) = takeAllOff es a := by
  induction es generalizing a with
  | nil => exact absurd hMem List.not_mem_nil
  | cons x es ih =>
      change
        takeAllOff es (x.takeOff (e.turnOn a)) =
          takeAllOff es (x.takeOff a)
      rcases List.mem_cons.mp hMem with rfl | hRest
      · rw [takeOff_turnOn_self]
      · rcases takeOff_turnOn x e a with hSame | hLater
        · rw [hSame]
        · rw [hLater]
          exact ih hRest (x.takeOff a)

theorem takeAllOff_turnAllOn
    {ds es : List Effect} (hSub : ∀ e ∈ ds, e ∈ es)
    (a : Attrs) :
    takeAllOff es (turnAllOn ds a) = takeAllOff es a := by
  induction ds generalizing a with
  | nil => rfl
  | cons e ds ih =>
      have hRest : ∀ x ∈ ds, x ∈ es := fun x hMem =>
        hSub x (List.mem_cons_of_mem e hMem)
      change
        takeAllOff es (turnAllOn ds (e.turnOn a)) =
          takeAllOff es a
      rw [ih hRest,
        takeAllOff_turnOn (hSub e List.mem_cons_self)]

/- Codes that mean what they stand for, one by one. -/
theorem apply_codes
    {es : List Effect} {code : Effect → ANSICode}
    {act : Effect → Attrs → Attrs}
    (hCode :
      ∀ e ∈ es, ∀ a, meaning (code e).toNat a = act e a)
    (a : Attrs) :
    apply meaning ((es.map code).map UInt64.toNat) a =
      es.foldl (fun a e => act e a) a := by
  induction es generalizing a with
  | nil => rfl
  | cons e es ih =>
      have hFirst := hCode e List.mem_cons_self a
      simp only [List.map_cons, apply_cons, List.foldl_cons,
        hFirst]
      exact
        ih (fun e' hMem =>
          hCode e' (List.mem_cons_of_mem e hMem)) _

------------------------------------------------------------
-- Nested Features
------------------------------------------------------------

/-
  An expression like `Green(OnWhite(Underlined("text")))`,
  with at least one effect.
-/
def nest :
    Effect → List Effect → Str → Except Exn FeatureBase
| e, [], s => e.construct (.text s)
| e, e' :: es, s => do
    let next ← nest e' es s
    e.construct (.feature next)

/- What it makes if nothing is wrong with its effects. -/
def assembled :
    Effect → List Effect → Str → FeatureBase
| e, [], s => .text s e.onCode e.offCode
| e, e' :: es, s =>
    .nested (assembled e' es s) e.onCode e.offCode

def AllSupported (e : Effect) (es : List Effect) : Prop :=
  ∀ x ∈ e :: es, x.Supported

instance (e : Effect) (es : List Effect) :
    Decidable (AllSupported e es) := by
  unfold AllSupported
  infer_instance

theorem nest_of_supported
    {e : Effect} {es : List Effect}
    (hAll : AllSupported e es) (s : Str) :
    nest e es s = .ok (assembled e es s) := by
  have hFirst := hAll e List.mem_cons_self
  induction es generalizing e with
  | nil => exact Effect.construct_of_supported hFirst _
  | cons e' es ih =>
      have hRest : AllSupported e' es := fun x hMem =>
        hAll x (List.mem_cons_of_mem e hMem)
      have hNext :=
        ih hRest (hRest e' List.mem_cons_self)
      simp only [nest, hNext, bind, Except.bind]
      exact Effect.construct_of_supported hFirst _

theorem nest_of_not_supported
    {e : Effect} {es : List Effect}
    (hNot : ¬ AllSupported e es) (s : Str) :
    nest e es s = .error (.usageError (str "bad value")) := by
  induction es generalizing e with
  | nil =>
      apply Effect.construct_of_not_supported
      intro hFirst
      exact hNot fun x hMem =>
        List.mem_singleton.mp hMem ▸ hFirst
  | cons e' es ih =>
      by_cases hRest : AllSupported e' es
      · have hFirst : ¬ e.Supported := by
          intro hFirst
          refine hNot fun x hMem => ?_
          rcases List.mem_cons.mp hMem with rfl | hMore
          · exact hFirst
          · exact hRest x hMore
        simp only [nest, nest_of_supported hRest, bind,
          Except.bind]
        exact Effect.construct_of_not_supported hFirst _
      · simp only [nest, ih hRest, bind, Except.bind]

theorem onCodes_assembled
    (e : Effect) (es : List Effect) (s : Str) :
    (assembled e es s).getFeatures.map
        FeatureBase.getOnCode =
      (e :: es).map Effect.onCode := by
  induction es generalizing e with
  | nil => rfl
  | cons e' es ih =>
      simp only [assembled, FeatureBase.getFeatures,
        List.map_cons, ih e']
      rfl

theorem offCodes_assembled
    (e : Effect) (es : List Effect) (s : Str) :
    (assembled e es s).getFeatures.map
        FeatureBase.getOffCode =
      (e :: es).map Effect.offCode := by
  induction es generalizing e with
  | nil => rfl
  | cons e' es ih =>
      simp only [assembled, FeatureBase.getFeatures,
        List.map_cons, ih e']
      rfl

theorem backText_assembled
    (e : Effect) (es : List Effect) (s : Str) :
    backText (assembled e es s).getFeatures = .ok s := by
  induction es generalizing e with
  | nil => rfl
  | cons e' es ih =>
      have hRest := ih e'
      unfold backText at hRest ⊢
      cases hMore : (assembled e' es s).getFeatures with
      | nil =>
          rw [hMore] at hRest
          exact absurd hRest (by simp)
      | cons f fs =>
          rw [hMore] at hRest
          simp only [assembled, FeatureBase.getFeatures,
            hMore, List.getLast?_cons_cons]
          exact hRest

/- The short cut for one effect does what the lists do. -/
theorem putFeature_assembled
    (tty : Bool) (o : OStream) (e : Effect)
    (es : List Effect) (s : Str) :
    putFeature tty o (assembled e es s) =
      .ok
        (if tty then
          ((o.putString
                (buildAnsiCommand
                  ((e :: es).map Effect.onCode))).putString
              s).putString
            (buildAnsiCommand
              ((e :: es).map Effect.offCode))
        else o.putString s) := by
  have hBack := backText_assembled e es s
  have hOn := onCodes_assembled e es s
  have hOff := offCodes_assembled e es s
  cases es with
  | nil => cases tty <;> rfl
  | cons e' es =>
      have hNested :
          (assembled e (e' :: es) s).hasNextFeature = true :=
        rfl
      cases tty with
      | false =>
          simp only [putFeature, hNested, hBack]
          rfl
      | true =>
          simp only [putFeature, hNested, hBack, hOn, hOff]
          rfl

------------------------------------------------------------
-- What a Terminal Shows
------------------------------------------------------------

theorem flatMap_codeText
    (code : ANSICode) (codes : List ANSICode) :
    (code :: codes).flatMap codeText =
      List.intercalate [59]
          (((code :: codes).map UInt64.toNat).map
            (digitText 10 false)) ++
        [59] := by
  induction codes generalizing code with
  | nil => simp [codeText, List.intercalate]
  | cons next codes ih =>
      rw [List.flatMap_cons, ih next]
      simp [codeText, List.intercalate]

theorem buildAnsiCommand_eq
    {codes : List ANSICode} (hSome : codes ≠ []) :
    buildAnsiCommand codes =
      command (codes.map UInt64.toNat) := by
  cases codes with
  | nil => exact absurd rfl hSome
  | cons code codes =>
      unfold buildAnsiCommand command
      rw [flatMap_codeText, ← List.append_assoc,
        List.dropLast_concat]

theorem putString_of_width
    {o : OStream} (hWidth : o.width ≤ 0) (s : Str) :
    o.putString s =
      { o with text := o.text ++ s, width := 0 } := by
  have hNone : (o.width - s.length).toNat = 0 := by
    omega
  unfold OStream.putString
  rw [hNone]
  simp

/- A stream without a pending width appends to its text. -/
structure Appends (o o' : OStream) (out : Str) : Prop where
  text : o'.text = o.text ++ out
  width : o'.width ≤ 0

theorem appends_refl
    {o : OStream} (hWidth : o.width ≤ 0) :
    Appends o o [] where
  text := (List.append_nil _).symm
  width := hWidth

theorem appends_putString
    {o : OStream} (hWidth : o.width ≤ 0) (s : Str) :
    Appends o (o.putString s) s := by
  rw [putString_of_width hWidth]
  exact ⟨rfl, le_refl 0⟩

theorem Appends.trans
    {o o' o'' : OStream} {out out' : Str}
    (hFirst : Appends o o' out)
    (hSecond : Appends o' o'' out') :
    Appends o o'' (out ++ out') where
  text := by
    rw [hSecond.text, hFirst.text, List.append_assoc]
  width := hSecond.width

/- Control sequences around a text, as a terminal sees it. -/
theorem feed_around
    {on off : List ANSICode} {text : Str}
    (hOn : on ≠ []) (hOff : off ≠ [])
    (hPlain : Plain text) (a : Attrs)
    (shown : List (UInt8 × Attrs)) :
    feed meaning ⟨.ground, a, shown⟩
        (buildAnsiCommand on ++ text ++
          buildAnsiCommand off) =
      ⟨.ground,
        apply meaning (off.map UInt64.toNat)
          (apply meaning (on.map UInt64.toNat) a),
        shown ++
          cells (apply meaning (on.map UInt64.toNat) a)
            text⟩ := by
  have hCodes : ∀ codes : List ANSICode, codes ≠ [] →
      codes.map UInt64.toNat ≠ [] := by
    intro codes hSome hNil
    exact hSome (List.map_eq_nil_iff.mp hNil)
  rw [buildAnsiCommand_eq hOn, buildAnsiCommand_eq hOff,
    feed_append, feed_append,
    feed_command meaning (hCodes on hOn),
    feed_plain meaning hPlain,
    feed_command meaning (hCodes off hOff)]

theorem feed_feature
    {e : Effect} {es : List Effect}
    (hAll : AllSupported e es) {s : Str} (hPlain : Plain s)
    (a : Attrs) (shown : List (UInt8 × Attrs)) :
    feed meaning ⟨.ground, a, shown⟩
        (buildAnsiCommand ((e :: es).map Effect.onCode) ++
            s ++
          buildAnsiCommand ((e :: es).map Effect.offCode)) =
      ⟨.ground, takeAllOff (e :: es) a,
        shown ++ cells (turnAllOn (e :: es) a) s⟩ := by
  have hOn :=
    apply_codes
      (fun x hMem b => Effect.meaning_onCode (hAll x hMem) b)
      a
  have hOff :=
    apply_codes
      (fun x hMem b => Effect.meaning_offCode (hAll x hMem) b)
      (turnAllOn (e :: es) a)
  have hSame :=
    @takeAllOff_turnAllOn (e :: es) (e :: es)
      (fun _ hMem => hMem) a
  rw [feed_around (by simp) (by simp) hPlain, hOn]
  rw [← hSame]
  exact congrArg
    (fun b => (⟨.ground, b,
      shown ++ cells (turnAllOn (e :: es) a) s⟩ :
        Device Attrs)) hOff

/-
  A nested feature on a terminal: the text with all effects,
  the inner ones on top of the outer ones. Afterwards every
  aspect that an effect is about has its default, which is
  what it was before iff no effect was on before.
-/
theorem feature_displayed
    {o : OStream} (hWidth : o.width ≤ 0)
    {e : Effect} {es : List Effect}
    (hAll : AllSupported e es) {s : Str} (hPlain : Plain s)
    (a : Attrs) :
    ∃ fb o' out,
      nest e es s = .ok fb ∧
        putFeature true o fb = .ok o' ∧
        Appends o o' out ∧
        feed meaning (.ready a) out =
          ⟨.ground, takeAllOff (e :: es) a,
            cells (turnAllOn (e :: es) a) s⟩ ∧
        (takeAllOff (e :: es) a = a ↔
          ∀ x ∈ e :: es, x.Absent a) := by
  have hOn :=
    appends_putString hWidth
      (buildAnsiCommand ((e :: es).map Effect.onCode))
  have hText := appends_putString hOn.width s
  have hOff :=
    appends_putString hText.width
      (buildAnsiCommand ((e :: es).map Effect.offCode))
  exact
    ⟨_, _, _, nest_of_supported hAll s,
      putFeature_assembled true o e es s,
      (hOn.trans hText).trans hOff,
      feed_feature hAll hPlain a [],
      takeAllOff_eq_iff _ a⟩

/- A stream as it is constructed. -/
def fresh : OStream where
  flags :=
    ⟨false, false, false, true, false, false, false, false,
      0x1000⟩
  fill := 32
  width := 0
  text := []

/- `Green(OnBrightWhite(Underlined("text")))`. -/
theorem feature_displayed_green :
    let spec : ColorSpec := ⟨.green, .front, .normal⟩
    let inner : List Effect :=
      [.color ⟨.white, .back, .bright⟩, .control .underlineOn]
    ∃ fb o' out,
      nest (.color spec) inner (str "text") = .ok fb ∧
        putFeature true fresh fb = .ok o' ∧
        Appends fresh o' out ∧
        feed meaning (.ready .default) out =
          ⟨.ground,
            takeAllOff (.color spec :: inner) .default,
            cells
              (turnAllOn (.color spec :: inner) .default)
              (str "text")⟩ ∧
        (takeAllOff (.color spec :: inner) .default =
            .default ↔
          ∀ x ∈ Effect.color spec :: inner,
            x.Absent .default) :=
  feature_displayed (by decide) (by decide) (by decide)
    .default

------------------------------------------------------------
-- Sessions
------------------------------------------------------------

/- What a program prints to a stream with one operator. -/
inductive Item where
| text (s : Str)
| color (spec : ColorSpec)
| control (p : TermControl)
| feature (e : Effect) (es : List Effect) (s : Str)

namespace Item

def put (tty : Bool) (o : OStream) :
    Item → Except Exn OStream
| text s => .ok (o.putString s)
| color spec => .ok (putColorSpec tty o spec)
| control p => .ok (putControl tty o p)
| feature e es s => do
    let fb ← nest e es s
    putFeature tty o fb

/- What the user is meant to read. -/
def words : Item → Str
| text s => s
| color _ => []
| control _ => []
| feature e es s => if AllSupported e es then s else []

/- Only colours and controls of their own stay in force. -/
def Neutral : Item → Prop
| color _ => False
| control _ => False
| _ => True

/- A stream after an item, also when there was an error. -/
def after (tty : Bool) (o : OStream) (item : Item) : OStream :=
  match item.put tty o with
  | .ok o' => o'
  | .error _ => o

theorem after_of_ok
    {tty : Bool} {o o' : OStream} {item : Item}
    (hPut : item.put tty o = .ok o') :
    item.after tty o = o' := by
  unfold after
  rw [hPut]

/-
  The item makes a terminal show its words; to another
  stream it writes just them.
-/
def Shows
    (tty : Bool) (o : OStream) (item : Item) (a : Attrs)
    (shown : List (UInt8 × Attrs)) : Prop :=
  ∃ out a' more,
    Appends o (item.after tty o) out ∧
      feed meaning ⟨.ground, a, shown⟩ out =
        ⟨.ground, a', shown ++ more⟩ ∧
      more.map Prod.fst = item.words ∧
      (item.Neutral → a = .default → a' = .default) ∧
      (tty = false → out = item.words)

section Showing

variable {tty : Bool} {o : OStream} (hWidth : o.width ≤ 0)
variable {item : Item} (a : Attrs)
variable (shown : List (UInt8 × Attrs))

include hWidth

/- The words go to the stream as they are. -/
theorem shows_words
    (hPlain : Plain item.words)
    (hAfter : item.after tty o = o.putString item.words) :
    Shows tty o item a shown := by
  refine
    ⟨item.words, a, cells a item.words, ?_,
      feed_plain meaning hPlain a shown,
      characters_cells a item.words,
      fun _ hDefault => hDefault, fun _ => rfl⟩
  rw [hAfter]
  exact appends_putString hWidth item.words

theorem shows_nothing
    (hAfter : item.after tty o = o)
    (hEmpty : item.words = []) :
    Shows tty o item a shown := by
  refine
    ⟨[], a, [], ?_, by simp, hEmpty.symm,
      fun _ hDefault => hDefault, fun _ => hEmpty.symm⟩
  rw [hAfter]
  exact appends_refl hWidth

/- On a terminal it is a control sequence. -/
theorem shows_command
    (code : ANSICode)
    (hAfter :
      item.after tty o =
        if tty then o.putString (buildAnsiCommand [code])
        else o)
    (hEmpty : item.words = []) (hOpen : ¬ item.Neutral) :
    Shows tty o item a shown := by
  cases tty with
  | false => exact shows_nothing hWidth a shown hAfter hEmpty
  | true =>
      refine
        ⟨buildAnsiCommand [code],
          apply meaning [code.toNat] a, [], ?_, ?_,
          hEmpty.symm, fun hNeutral => absurd hNeutral hOpen,
          by simp⟩
      · rw [hAfter]
        exact appends_putString hWidth _
      · rw [buildAnsiCommand_eq (by simp),
          feed_command meaning (by simp), List.append_nil]
        rfl

theorem shows_feature
    {e : Effect} {es : List Effect}
    (hAll : AllSupported e es) {s : Str}
    (hPlain : Plain s) :
    Shows tty o (.feature e es s) a shown := by
  have hText : words (.feature e es s) = s := if_pos hAll
  have hPut :
      put tty o (.feature e es s) =
        putFeature tty o (assembled e es s) := by
    simp only [put, nest_of_supported hAll]
    rfl
  rw [putFeature_assembled] at hPut
  have hAfter := after_of_ok hPut
  cases tty with
  | false =>
      apply shows_words hWidth a shown
      · rw [hText]
        exact hPlain
      · rw [hAfter, hText]
        rfl
  | true =>
      have hOn :=
        appends_putString hWidth
          (buildAnsiCommand ((e :: es).map Effect.onCode))
      have hMiddle := appends_putString hOn.width s
      have hOff :=
        appends_putString hMiddle.width
          (buildAnsiCommand ((e :: es).map Effect.offCode))
      refine
        ⟨_, takeAllOff (e :: es) a, _, ?_,
          feed_feature hAll hPlain a shown, ?_, ?_, by simp⟩
      · rw [hAfter]
        exact (hOn.trans hMiddle).trans hOff
      · rw [hText]
        exact characters_cells _ s
      · intro _ hDefault
        rw [hDefault]
        exact
          (takeAllOff_eq_iff _ _).mpr fun x _ y _ =>
            Attrs.isUnset_default y

theorem shows_item (hPlain : Plain item.words) :
    Shows tty o item a shown := by
  cases item with
  | text s => exact shows_words hWidth a shown hPlain rfl
  | color spec =>
      refine
        shows_command hWidth a shown (getAnsiColorCode spec)
          ?_ rfl fun h => h
      cases tty <;> rfl
  | control p =>
      refine
        shows_command hWidth a shown p.raw ?_ rfl fun h => h
      cases tty <;> rfl
  | feature e es s =>
      by_cases hAll : AllSupported e es
      · apply shows_feature hWidth a shown hAll
        rw [words, if_pos hAll] at hPlain
        exact hPlain
      · apply shows_nothing hWidth a shown
        · simp only [after, put, nest_of_not_supported hAll,
            bind, Except.bind]
        · exact if_neg hAll

end Showing

end Item

/- The standard streams and what was found out about them. -/
structure World where
  detection : Detection
  stream : Buf → OStream

inductive Op where
| put (buf : Buf) (item : Item)
| refresh
    (getEnvVar : Str → Option Str) (output error : Sys Unit)

def step (w : World) : Op → World
| .put buf item =>
    { w with
      stream :=
        Function.update w.stream buf
          (item.after (isTTYStream w.detection buf)
            (w.stream buf)) }
| .refresh getEnvVar output error =>
    { w with
      detection :=
        ((refreshTTYDetection getEnvVar output error :
            Method Detection Unit).run
          w.detection).2 }

def run (w : World) (ops : List Op) : World :=
  ops.foldl step w

/- What goes to a stream if there are no terminals. -/
def wordsOn (buf : Buf) : List Op → Str
| [] => []
| .put buf' item :: ops =>
    (if buf' = buf then item.words else []) ++
      wordsOn buf ops
| .refresh _ _ _ :: ops => wordsOn buf ops

def PlainOps (ops : List Op) : Prop :=
  ∀ buf item, .put buf item ∈ ops → Plain item.words

def NeutralOps (ops : List Op) : Prop :=
  ∀ buf item, .put buf item ∈ ops → item.Neutral

/- How a session continues on the terminal of a stream. -/
structure Continues
    (w w' : World) (buf : Buf) (ops : List Op)
    (a a' : Attrs) (out : Str)
    (shown more : List (UInt8 × Attrs)) : Prop where
  appends : Appends (w.stream buf) (w'.stream buf) out
  device :
    feed meaning ⟨.ground, a, shown⟩ out =
      ⟨.ground, a', shown ++ more⟩
  words : more.map Prod.fst = wordsOn buf ops
  neutral : NeutralOps ops → a = .default → a' = .default
  other : buf = .other → out = wordsOn buf ops

theorem exists_continues
    {ops : List Op} (hPlain : PlainOps ops) {w : World}
    (buf : Buf) (hWidth : (w.stream buf).width ≤ 0)
    (a : Attrs) (shown : List (UInt8 × Attrs)) :
    ∃ a' out more,
      Continues w (run w ops) buf ops a a' out shown
        more := by
  induction ops generalizing w a shown with
  | nil =>
      exact
        ⟨a, [], [], appends_refl hWidth, by simp, rfl,
          fun _ hDefault => hDefault, fun _ => rfl⟩
  | cons op ops ih =>
      have hRest : PlainOps ops := fun b item hMem =>
        hPlain b item (List.mem_cons_of_mem op hMem)
      have hNeutral : NeutralOps (op :: ops) →
          NeutralOps ops := fun hAll b item hMem =>
        hAll b item (List.mem_cons_of_mem op hMem)
      cases op with
      | refresh getEnvVar output error =>
          rcases
            ih hRest (w := step w (.refresh _ _ _)) hWidth a
              shown with
            ⟨a', out, more, hCont⟩
          exact
            ⟨a', out, more, hCont.appends, hCont.device,
              hCont.words,
              fun hAll => hCont.neutral (hNeutral hAll),
              hCont.other⟩
      | put buf' item =>
          by_cases hHere : buf' = buf
          · subst hHere
            have hWords : Plain item.words :=
              hPlain buf' item List.mem_cons_self
            have hShows :
                Item.Shows (isTTYStream w.detection buf')
                  (w.stream buf') item a shown :=
              Item.shows_item hWidth a shown hWords
            rcases hShows with
              ⟨out, a', more, hAppends, hFeed, hMap, hStay,
                hOff⟩
            have hAfter :
                (step w (.put buf' item)).stream buf' =
                  item.after (isTTYStream w.detection buf')
                    (w.stream buf') :=
              Function.update_self _ _ _
            rw [← hAfter] at hAppends
            rcases ih hRest hAppends.width a' (shown ++ more)
              with ⟨a'', out', more', hCont⟩
            refine
              ⟨a'', out ++ out', more ++ more',
                hAppends.trans hCont.appends, ?_, ?_, ?_, ?_⟩
            · rw [feed_append, hFeed, hCont.device,
                List.append_assoc]
            · rw [List.map_append, hMap, hCont.words, wordsOn,
                if_pos rfl]
            · intro hAll hDefault
              have hFirst :=
                hAll buf' item List.mem_cons_self
              exact
                hCont.neutral (hNeutral hAll)
                  (hStay hFirst hDefault)
            · intro hOther
              have hNone :
                  isTTYStream w.detection buf' = false := by
                rw [hOther]
                rfl
              rw [hOff hNone, hCont.other hOther, wordsOn,
                if_pos rfl]
          · have hSame :
                (step w (.put buf' item)).stream buf =
                  w.stream buf :=
              Function.update_of_ne (Ne.symm hHere) _ _
            have hWidth' := hWidth
            rw [← hSame] at hWidth'
            rcases ih hRest hWidth' a shown with
              ⟨a', out, more, hCont⟩
            have hAppends := hCont.appends
            rw [hSame] at hAppends
            have hWords :
                wordsOn buf (.put buf' item :: ops) =
                  wordsOn buf ops := by
              rw [wordsOn, if_neg hHere, List.nil_append]
            refine
              ⟨a', out, more, hAppends, hCont.device, ?_,
                fun hAll => hCont.neutral (hNeutral hAll), ?_⟩
            · rw [hWords]
              exact hCont.words
            · rw [hWords]
              exact hCont.other

/-
  Whatever is printed to the standard streams, with the
  check for terminals repeated at any time: a terminal
  shows on each stream what would go to a file, it is never
  left in the middle of a control sequence, and it has its
  default attributes again if only texts and features were
  printed. Other streams never get a control sequence.
-/
theorem session_visible
    {ops : List Op} (hPlain : PlainOps ops) {w : World}
    (buf : Buf) (hWidth : (w.stream buf).width ≤ 0)
    (a : Attrs) :
    ∃ out,
      ((run w ops).stream buf).text =
          (w.stream buf).text ++ out ∧
        (feed meaning (.ready a) out).mode = .ground ∧
        (feed meaning (.ready a) out).characters =
          wordsOn buf ops ∧
        (NeutralOps ops → a = .default →
          (feed meaning (.ready a) out).attrs = .default) ∧
        (buf = .other → out = wordsOn buf ops) := by
  rcases exists_continues hPlain buf hWidth a [] with
    ⟨a', out, more, hCont⟩
  have hDevice :
      feed meaning (.ready a) out = ⟨.ground, a', more⟩ :=
    hCont.device
  refine
    ⟨out, hCont.appends.text, ?_, ?_, ?_, hCont.other⟩
  · rw [hDevice]
  · rw [hDevice]
    exact hCont.words
  · intro hAll hDefault
    rw [hDevice]
    exact hCont.neutral hAll hDefault

/- The output is redirected in the middle of a session. -/
def redirected : List Op :=
  [.put .cout
      (.feature (.color ⟨.green, .front, .normal⟩) []
        (str "yes")),
    .refresh (fun _ => none) (.error notATty) (.ok ()),
    .put .cout
      (.feature (.color ⟨.red, .front, .bright⟩)
        [.control .blinkOn] (str " no"))]

theorem session_visible_redirected :
    let w : World := ⟨⟨true, true⟩, fun _ => fresh⟩
    ∃ out,
      ((run w redirected).stream .cout).text =
          (w.stream .cout).text ++ out ∧
        (feed meaning (.ready .default) out).mode =
          .ground ∧
        (feed meaning (.ready .default) out).characters =
          wordsOn .cout redirected ∧
        (NeutralOps redirected → Attrs.default = .default →
          (feed meaning (.ready .default) out).attrs =
            .default) ∧
        (Buf.cout = .other →
          out = wordsOn .cout redirected) := by
  refine
    @session_visible redirected ?_ _ .cout (by decide)
      .default
  intro buf item hMem
  simp only [redirected, List.mem_cons, Op.put.injEq,
    reduceCtorEq, List.not_mem_nil, or_false, false_or]
    at hMem
  rcases hMem with ⟨_, rfl⟩ | ⟨_, rfl⟩
  · decide
  · decide

end Color

end Cosmos
