import LibCosmos.Core.Split
import LibCosmos.FS.FileDescriptor
import LibCosmos.Foundation.LastWins
import LibCosmos.Foundation.Trim

/-
  The channels of a logger and their configuration from a
  string (`include/io/ILogger.hxx`, `src/io/ILogger.cxx`).

  Main declarations:
    * `ILogger.configFromString`
    * `ILogger.entries`, `ILogger.Names`
    * `ILogger.configFromString_cases`
-/

namespace Cosmos

------------------------------------------------------------
-- The Code
------------------------------------------------------------

/-
  What a locale says about characters. `tolower` changes
  letters only, and lower case ones stay as they are.
-/
structure Locale where
  isspace : Byte → Bool
  tolower : Byte → Byte
  tolower_lower :
    ∀ ch, 97 ≤ ch → ch ≤ 122 → tolower ch = ch
  tolower_bang : ∀ ch, tolower ch = 33 ↔ ch = 33

/- The "C" locale. -/
def Locale.c : Locale where
  isspace := Split.isspaceC
  tolower ch := if 65 ≤ ch ∧ ch ≤ 90 then ch + 32 else ch
  tolower_lower := by
    intro ch hLow _
    apply if_neg
    rintro ⟨-, hUpper⟩
    exact
      absurd (UInt8.le_trans hLow hUpper) (by decide)
  tolower_bang := by
    intro ch
    split
    · next hUpper =>
        simp only [UInt8.le_iff_toNat_le, ← UInt8.toNat_inj,
          UInt8.toNat_add, UInt8.reduceToNat] at hUpper ⊢
        omega
    · rfl

/- `to_lower`. -/
def Locale.toLower (locale : Locale) (s : Str) : Str :=
  s.map locale.tolower

/- The `enabled` members of the streams of a logger. -/
structure ILogger where
  mErr : Bool
  mWarn : Bool
  mInfo : Bool
  mDebug : Bool
deriving DecidableEq, Repr

namespace ILogger

/- The local variables of `configFromString`. -/
inductive Channel where
| error
| warning
| info
| debug
deriving DecidableEq, Repr

abbrev Variables := Channel → Bool

def setChannels (error warning info debug : Bool) :
    Method ILogger Unit :=
  Command.modify fun _ => ⟨error, warning, info, debug⟩

def settings : List (Str × Channel) :=
  [(str "error", .error), (str "warn", .warning),
    (str "info", .info), (str "debug", .debug)]

section Code

variable (locale : Locale)

/- `"Bad logger channel name '%s'"` with a C string. -/
def badName (channel : Str) : Exn :=
  .runtimeError
    (str "Bad logger channel name '" ++
      channel.takeWhile (· ≠ 0) ++ str "'")

/- The body of the loop over the parts. -/
def configChannel (vars : Variables) (channel : Str) :
    Except Exn Variables :=
  let channel := locale.toLower channel
  let negated := channel.head? = some 33
  let enabled := if negated then false else true
  let channel := if negated then channel.drop 1 else channel
  match settings.lookup channel with
  | some it => .ok (Function.update vars it enabled)
  | none => .error (badName channel)

def comma : Split.Separator where
  chars := str ","
  nonempty := by decide

/- `configFromString`. -/
def configFromString (var : Split.View) :
    Method ILogger Unit := do
  let this ← Command.get
  let vars : Variables
    | .error => this.mErr
    | .warning => this.mWarn
    | .info => this.mInfo
    | .debug => this.mDebug
  let applied : Except Exn Variables :=
    match
      Split.split locale.isspace var comma ⟨true, false⟩ 0
    with
    | .error e => .error e
    | .ok parts =>
        parts.foldlM (configChannel locale) vars
  match applied with
  | .error e => Command.raise e
  | .ok vars =>
      setChannels (vars .error) (vars .warning)
        (vars .info) (vars .debug)

end Code

------------------------------------------------------------
-- The Language
------------------------------------------------------------

/- The channels by name, and whether they are enabled. -/
def Channel.name : Channel → Str
| .error => str "error"
| .warning => str "warn"
| .info => str "info"
| .debug => str "debug"

def enabled (this : ILogger) : Channel → Bool
| .error => this.mErr
| .warning => this.mWarn
| .info => this.mInfo
| .debug => this.mDebug

section Language

variable (locale : Locale)

/- The parts between commas, without space around them. -/
def entries (var : Str) : List Str :=
  ((var.splitOn 44).map (Trim.trim locale.isspace)).filter
    (· ≠ [])

/- Equal but for the case of letters. -/
def SameCaseless (a b : Str) : Prop :=
  a.map locale.tolower = b.map locale.tolower

/- The entry is the name, or an exclamation mark and it. -/
inductive Names (entry : Str) (channel : Channel) :
    Bool → Prop where
| on :
    SameCaseless locale entry channel.name →
    Names entry channel true
| off {rest : Str} :
    entry = 33 :: rest →
    SameCaseless locale rest channel.name →
    Names entry channel false

example :
    entries Locale.c (str " Info,, !DEBUG ") =
        [str "Info", str "!DEBUG"] ∧
      Names Locale.c (str "!DEBUG") .debug false := by
  have hBang : str "!DEBUG" = 33 :: str "DEBUG" := rfl
  exact ⟨by decide, Names.off hBang rfl⟩

/- What a list of entries does to a logger. -/
structure Configured
    (es : List Str) (before after : ILogger) : Prop where
  last :
    ∀ {front back : List Str} {entry : Str}
      {channel : Channel} {val : Bool},
      es = front ++ entry :: back →
      Names locale entry channel val →
      (∀ later ∈ back, ∀ other,
        ¬ Names locale later channel other) →
      after.enabled channel = val
  kept :
    ∀ {channel : Channel},
      (∀ entry ∈ es, ∀ val,
        ¬ Names locale entry channel val) →
      after.enabled channel = before.enabled channel

------------------------------------------------------------
-- Names
------------------------------------------------------------

/- The names are in lower case. -/
theorem toLower_name (channel : Channel) :
    locale.toLower channel.name = channel.name := by
  have hLower :
      channel.name.all
        (fun ch => decide (97 ≤ ch ∧ ch ≤ 122)) = true := by
    cases channel <;> rfl
  unfold Locale.toLower
  refine (List.map_congr_left ?_).trans (List.map_id _)
  intro ch hMem
  rcases of_decide_eq_true (List.all_eq_true.mp hLower ch hMem)
    with ⟨hLow, hHigh⟩
  exact locale.tolower_lower ch hLow hHigh

theorem sameCaseless_name_iff
    (entry : Str) (channel : Channel) :
    SameCaseless locale entry channel.name ↔
      locale.toLower entry = channel.name := by
  have hName := toLower_name locale channel
  unfold SameCaseless
  unfold Locale.toLower at hName ⊢
  rw [hName]

omit locale in
theorem name_injective {channel other : Channel}
    (hSame : channel.name = other.name) :
    channel = other := by
  cases channel <;> cases other <;> revert hSame <;> decide

omit locale in
theorem settings_lookup_iff (s : Str) (channel : Channel) :
    settings.lookup s = some channel ↔
      s = channel.name := by
  constructor
  · intro hFound
    rcases List.lookup_eq_some_iff.mp hFound with
      ⟨before, after, hAll, -⟩
    have hMem : (s, channel) ∈ settings := by
      rw [hAll]
      simp
    simp only [settings, List.mem_cons, List.not_mem_nil,
      or_false, Prod.mk.injEq] at hMem
    rcases hMem with
      ⟨hName, rfl⟩ | ⟨hName, rfl⟩ | ⟨hName, rfl⟩ |
      ⟨hName, rfl⟩ <;>
      exact hName
  · intro hSame
    rw [hSame]
    cases channel <;> decide

/- No name starts with an exclamation mark. -/
theorem head_of_sameCaseless
    {entry : Str} {channel : Channel}
    (hSame : SameCaseless locale entry channel.name) :
    (locale.toLower entry).head? ≠ some 33 := by
  rw [(sameCaseless_name_iff locale entry channel).mp hSame]
  cases channel <;> decide

theorem head_toLower_iff (entry : Str) :
    (locale.toLower entry).head? = some 33 ↔
      entry.head? = some 33 := by
  unfold Locale.toLower
  cases entry with
  | nil => simp
  | cons ch rest => simp [locale.tolower_bang]

/- An entry is about one channel and has one value. -/
theorem names_unique
    {entry : Str} {channel other : Channel} {val val' : Bool}
    (hNames : Names locale entry channel val)
    (hOther : Names locale entry other val') :
    channel = other ∧ val = val' := by
  have hMixed :
      ∀ {on off : Channel} {rest : Str},
        SameCaseless locale entry on.name →
        entry = 33 :: rest →
        SameCaseless locale rest off.name → False := by
    intro on off rest hOn hBang _
    apply head_of_sameCaseless locale hOn
    rw [head_toLower_iff, hBang]
    rfl
  cases hNames with
  | on hSame =>
      cases hOther with
      | on hSame' =>
          rw [sameCaseless_name_iff] at hSame hSame'
          exact
            ⟨name_injective (hSame.symm.trans hSame'), rfl⟩
      | off hBang hSame' =>
          exact (hMixed hSame hBang hSame').elim
  | off hBang hSame =>
      cases hOther with
      | on hSame' =>
          exact (hMixed hSame' hBang hSame).elim
      | off hBang' hSame' =>
          rw [hBang] at hBang'
          injection hBang' with _ hRest
          rw [← hRest] at hSame'
          rw [sameCaseless_name_iff] at hSame hSame'
          exact
            ⟨name_injective (hSame.symm.trans hSame'), rfl⟩

------------------------------------------------------------
-- The Loop
------------------------------------------------------------

/- The loop does what the entries mean. -/
theorem configChannel_understood :
    LastWins.Understood (Names locale)
      (configChannel locale) where
  assigns := by
    intro vars vars' entry hOk
    unfold configChannel at hOk
    by_cases hBang :
        (locale.toLower entry).head? = some 33
    · simp only [hBang, if_true] at hOk
      split at hOk
      · next it hFound =>
          injection hOk with hVars
          rw [settings_lookup_iff] at hFound
          rw [head_toLower_iff] at hBang
          cases entry with
          | nil => cases hBang
          | cons ch rest =>
              injection hBang with hHead
              refine ⟨it, false, ?_, hVars.symm⟩
              refine Names.off (by rw [hHead]) ?_
              rw [sameCaseless_name_iff, ← hFound]
              rfl
      · cases hOk
    · simp only [hBang, if_false] at hOk
      split at hOk
      · next it hFound =>
          injection hOk with hVars
          rw [settings_lookup_iff] at hFound
          refine ⟨it, true, ?_, hVars.symm⟩
          apply Names.on
          rw [sameCaseless_name_iff]
          exact hFound
      · cases hOk
  rejects := by
    intro vars entry e hError channel val hNames
    unfold configChannel at hError
    cases hNames with
    | on hSame =>
        have hBang := head_of_sameCaseless locale hSame
        rw [sameCaseless_name_iff,
          ← settings_lookup_iff] at hSame
        simp only [hBang, if_false, hSame] at hError
        cases hError
    | off hEntry hSame =>
        have hBang :
            (locale.toLower entry).head? = some 33 := by
          rw [head_toLower_iff, hEntry]
          rfl
        rw [sameCaseless_name_iff,
          ← settings_lookup_iff] at hSame
        have hDrop :
            (locale.toLower entry).drop 1 =
              locale.toLower _ :=
          congrArg (List.drop 1)
            (congrArg locale.toLower hEntry)
        simp only [hBang, if_true] at hError
        rw [hDrop, hSame] at hError
        cases hError
  one := names_unique locale

------------------------------------------------------------
-- The Call
------------------------------------------------------------

/- `split` makes the entries. -/
theorem split_entries (var : Split.View) :
    Split.split locale.isspace var comma ⟨true, false⟩ 0 =
      .ok (entries locale var.chars) := by
  have hPieces :
      var.chars.splitOn 44 =
        Pieces.pieces comma.chars var.chars.length
          var.chars := by
    have hFree :
        ∀ p ∈ Pieces.pieces comma.chars var.chars.length
          var.chars, (44 : Byte) ∉ p := by
      intro p hMem hComma
      apply
        Pieces.not_infix_of_mem_pieces comma.nonempty
          (Nat.le_refl _) p hMem
      exact (List.singleton_infix_iff 44 p).mpr hComma
    have hJoined :=
      Pieces.intercalate_pieces comma.chars
        var.chars.length var.chars
    have hSplit :=
      List.splitOn_intercalate 44 hFree
        (Pieces.pieces_ne_nil _ _ _)
    rw [← hSplit]
    exact congrArg (List.splitOn 44) hJoined.symm
  have hPart :
      Split.part locale.isspace ⟨true, false⟩ =
        Trim.trim locale.isspace := by
    rfl
  rw [Split.split_visible _ _ _ _ (by decide)]
  unfold Split.visible entries
  rw [hPieces, hPart]

/-
  Either every entry names a channel, and the logger is
  configured, or one does not, and nothing is changed.
-/
theorem configFromString_cases
    (var : Split.View) (logger : ILogger) :
    (∃ after,
        (configFromString locale var).run logger =
          (.returned (), after) ∧
        (∀ entry ∈ entries locale var.chars,
          ∃ channel val, Names locale entry channel val) ∧
        Configured locale (entries locale var.chars) logger
          after) ∨
      ∃ msg,
        (configFromString locale var).run logger =
          (.raised (.runtimeError msg), logger) ∧
        ∃ entry ∈ entries locale var.chars,
          ∀ channel val,
            ¬ Names locale entry channel val := by
  have hRun :
      (configFromString locale var).run logger =
        match
          (entries locale var.chars).foldlM
            (configChannel locale) logger.enabled
        with
        | .error e => (.raised e, logger)
        | .ok vars =>
            (.returned (),
              ⟨vars .error, vars .warning, vars .info,
                vars .debug⟩) := by
    unfold configFromString
    simp only [Command.run_bind, Command.run_get,
      split_entries]
    have hVars :
        (fun channel =>
            match channel with
            | .error => logger.mErr
            | .warning => logger.mWarn
            | .info => logger.mInfo
            | .debug => logger.mDebug : Variables) =
          logger.enabled := by
      funext channel
      cases channel <;> rfl
    rw [hVars]
    cases
      (entries locale var.chars).foldlM
        (configChannel locale) logger.enabled <;> rfl
  rw [hRun]
  rcases
    LastWins.foldlM_cases (configChannel_understood locale)
      (entries locale var.chars) logger.enabled with
    ⟨vars, hOk, hAll, hAssigned⟩ |
    ⟨entry, hMem, vars, e, hError, hBad, hNothing⟩
  · left
    have hAfter :
        ∀ channel,
          enabled
              ⟨vars .error, vars .warning, vars .info,
                vars .debug⟩
              channel =
            vars channel := by
      intro channel
      cases channel <;> rfl
    rw [hOk]
    refine ⟨_, rfl, hAll, ?_, ?_⟩
    · intro front back entry channel val hEntries hNames
        hLast
      rw [hAfter]
      exact hAssigned.last hEntries hNames hLast
    · intro channel hNone
      rw [hAfter]
      exact hAssigned.kept hNone
  · right
    have hKind : ∃ msg, e = .runtimeError msg := by
      unfold configChannel at hBad
      simp only at hBad
      split at hBad
      · cases hBad
      · injection hBad with hBad
        exact ⟨_, hBad.symm⟩
    rcases hKind with ⟨msg, hKind⟩
    rw [hError, hKind]
    exact ⟨msg, rfl, entry, hMem, hNothing⟩

end Language

end ILogger

end Cosmos
