import LibCosmos.Foundation.Buffer
import LibCosmos.IO.Color
import LibCosmos.IO.ILogger

/-
  A logger at work (`include/io/ILogger.hxx`,
  `src/io/ILogger.cxx`, `src/io/StdLogger.cxx`): every
  channel has a stream and a colour, and a channel that is
  disabled writes to a string stream that nobody reads.

  Main declarations:
    * `Logger.getStream`, `Logger.log`
    * `Logger.std`
    * `Logger.session_logged`
-/

namespace Cosmos

open Escape

------------------------------------------------------------
-- The Code
------------------------------------------------------------

/- A string stream: what is in it and where it writes. -/
structure StringStream where
  text : Str
  pos : Nat
deriving DecidableEq, Repr

namespace StringStream

def seekp (o : StringStream) (pos : Nat) : StringStream :=
  { o with pos := pos }

def put (o : StringStream) (s : Str) : StringStream where
  text := Buffer.write o.text o.pos s
  pos := o.pos + s.length

end StringStream

/- The members of `StreamState` that change. -/
structure StreamState where
  stream : Color.Buf
  isTTY : Bool
deriving DecidableEq, Repr

/- `channels` has the `enabled` members of the states. -/
structure Logger where
  channels : ILogger
  state : ILogger.Channel → StreamState
  mCommonPrefix : Str
  mNull : StringStream

namespace Logger

/- The constant members that the constructor sets. -/
def label : ILogger.Channel → Str
| .error => str "Error:   "
| .warning => str "Warning: "
| .info => str "Info:    "
| .debug => str "Debug:   "

def frontColor (c : TermColor) : ColorSpec :=
  ⟨c, .front, .normal⟩

def color : ILogger.Channel → ColorSpec
| .error => frontColor .red
| .warning => frontColor .yellow
| .info => frontColor .white
| .debug => frontColor .cyan

/- `ILogger::isTTY`, with the answers of `isatty`. -/
def isTTY
    (isatty : FileNum → Sys Unit) :
    Color.Buf → Method Logger Bool
| .cout => Color.isTTY (isatty .stdout)
| .cerr => Color.isTTY (isatty .stderr)
| .other => pure false

/- `enabled` is set last, to true for all but `debug`. -/
def setStream
    (isatty : FileNum → Sys Unit) (s : Color.Buf)
    (channel : ILogger.Channel) : Method Logger Unit := do
  .modify fun this =>
    { this with
      state :=
        Function.update this.state channel
          { this.state channel with stream := s } }
  let tty ← isTTY isatty s
  .modify fun this =>
    { this with
      state :=
        Function.update this.state channel
          { this.state channel with isTTY := tty }
      channels :=
        match channel with
        | .error => { this.channels with mErr := true }
        | .warning => { this.channels with mWarn := true }
        | .info => { this.channels with mInfo := true }
        | .debug => { this.channels with mDebug := false } }

def setStreams
    (isatty : FileNum → Sys Unit)
    (debug info warn err : Color.Buf) :
    Method Logger Unit := do
  setStream isatty debug .debug
  setStream isatty err .error
  setStream isatty info .info
  setStream isatty warn .warning

/- A logger without streams; all channels are disabled. -/
def blank : Logger where
  channels := ⟨false, false, false, false⟩
  state _ := ⟨.other, false⟩
  mCommonPrefix := []
  mNull := ⟨[], 0⟩

/- The constructor of `StdLogger`. -/
def std (isatty : FileNum → Sys Unit) :
    Method Logger Unit :=
  setStreams isatty .cout .cout .cout .cerr

/- A program with a logger and the standard streams. -/
structure World where
  detection : Color.Detection
  stream : Color.Buf → OStream
  logger : Logger

/- Output to a stream, or to the stream for nobody. -/
def write
    (w : World) (out : Option Color.Buf)
    (item : Color.Item) : World :=
  match out with
  | some buf =>
      { w with
        stream :=
          Function.update w.stream buf
            (item.after (Color.isTTYStream w.detection buf)
              (w.stream buf)) }
  -- the string stream is no terminal
  | none =>
      { w with
        logger :=
          { w.logger with
            mNull := w.logger.mNull.put item.words } }

/- Back to the start, so that the buffer does not grow. -/
def getNoopStream (w : World) : World :=
  { w with
    logger :=
      { w.logger with mNull := w.logger.mNull.seekp 0 } }

/- The stream of a channel, with the label written to it. -/
def getStream
    (w : World) (channel : ILogger.Channel) :
    World × Option Color.Buf :=
  let state := w.logger.state channel
  let enabled := w.logger.channels.enabled channel
  let out := if enabled then some state.stream else none
  let w := if enabled then w else getNoopStream w
  let w :=
    if state.isTTY then write w out (.color (color channel))
    else w
  let w := write w out (.text w.logger.mCommonPrefix)
  let w := write w out (.text (label channel))
  let w :=
    if state.isTTY then
      write w out (.control .defaultFgColor)
    else w
  (w, out)

/- `logger.error() << text`, and so on. -/
def log
    (w : World) (channel : ILogger.Channel) (text : Str) :
    World :=
  let (w, out) := getStream w channel
  write w out (.text text)

------------------------------------------------------------
-- Messages
------------------------------------------------------------

/- What a call logs, and where it goes to. -/
structure Message where
  target : Option Color.Buf
  mark : Option ColorSpec
  label : Str
  text : Str

/- The label is coloured if both checks found a terminal. -/
def message
    (w : World) (channel : ILogger.Channel) (text : Str) :
    Message :=
  let state := w.logger.state channel
  let tty :=
    state.isTTY &&
      Color.isTTYStream w.detection state.stream
  { target :=
      if w.logger.channels.enabled channel then
        some state.stream
      else none
    mark := if tty then some (color channel) else none
    label := w.logger.mCommonPrefix ++ label channel
    text := text }

namespace Message

def labelAttrs (m : Message) : Color.Attrs :=
  match m.mark with
  | some spec =>
      Color.Effect.turnOn (.color spec) .default
  | none => .default

/- On a terminal only the label is coloured. -/
def display (m : Message) : List (UInt8 × Color.Attrs) :=
  cells m.labelAttrs m.label ++ cells .default m.text

def size (m : Message) : Nat :=
  m.label.length + m.text.length

end Message

/- The bytes that a message is on its stream. -/
def encoded (m : Message) : Str :=
  match m.mark with
  | some spec =>
      buildAnsiCommand [getAnsiColorCode spec] ++
          m.label ++
        buildAnsiCommand
          [TermControl.defaultFgColor.raw] ++ m.text
  | none => m.label ++ m.text

------------------------------------------------------------
-- Output
------------------------------------------------------------

/-
  Output to a stream or to nobody: `bytes` is what a stream
  gets, `words` what the string stream gets.
-/
structure Wrote
    (w w' : World) (out : Option Color.Buf)
    (bytes words : Str) : Prop where
  detection : w'.detection = w.detection
  channels : w'.logger.channels = w.logger.channels
  state : w'.logger.state = w.logger.state
  common :
    w'.logger.mCommonPrefix = w.logger.mCommonPrefix
  others : ∀ b, out ≠ some b → w'.stream b = w.stream b
  target :
    ∀ b, out = some b →
      Color.Appends (w.stream b) (w'.stream b) bytes
  nullKept :
    out ≠ none → w'.logger.mNull = w.logger.mNull
  nullPos :
    out = none →
      w'.logger.mNull.pos =
        w.logger.mNull.pos + words.length
  nullLength :
    out = none →
      w'.logger.mNull.text.length =
        max w.logger.mNull.text.length
          (w.logger.mNull.pos + words.length)

/- No stream has a width that the next output would use. -/
def Unpadded (w : World) : Prop :=
  ∀ b, (w.stream b).width ≤ 0

theorem Wrote.unpadded
    {w w' : World} {out : Option Color.Buf}
    {bytes words : Str} (hWrote : Wrote w w' out bytes words)
    (hUnpadded : Unpadded w) : Unpadded w' := by
  intro b
  by_cases hTarget : out = some b
  · exact (hWrote.target b hTarget).width
  · rw [hWrote.others b hTarget]
    exact hUnpadded b

theorem Wrote.trans
    {w w' w'' : World} {out : Option Color.Buf}
    {bytes bytes' words words' : Str}
    (hFirst : Wrote w w' out bytes words)
    (hSecond : Wrote w' w'' out bytes' words') :
    Wrote w w'' out (bytes ++ bytes') (words ++ words') where
  detection := hSecond.detection.trans hFirst.detection
  channels := hSecond.channels.trans hFirst.channels
  state := hSecond.state.trans hFirst.state
  common := hSecond.common.trans hFirst.common
  others b hOther :=
    (hSecond.others b hOther).trans (hFirst.others b hOther)
  target b hTarget :=
    (hFirst.target b hTarget).trans (hSecond.target b hTarget)
  nullKept hSome :=
    (hSecond.nullKept hSome).trans (hFirst.nullKept hSome)
  nullPos hNone := by
    rw [hSecond.nullPos hNone, hFirst.nullPos hNone,
      List.length_append, Nat.add_assoc]
  nullLength hNone := by
    rw [hSecond.nullLength hNone, hFirst.nullLength hNone,
      hFirst.nullPos hNone, List.length_append]
    omega

theorem Wrote.congr
    {w w' : World} {out : Option Color.Buf}
    {bytes bytes' words words' : Str}
    (hWrote : Wrote w w' out bytes words)
    (hBytes : ∀ b, out = some b → bytes = bytes')
    (hWords : words = words') :
    Wrote w w' out bytes' words' := by
  subst hWords
  exact
    { hWrote with
      target := fun b hTarget => by
        rw [← hBytes b hTarget]
        exact hWrote.target b hTarget }

theorem length_put
    (o : StringStream) (s : Str) :
    (o.put s).text.length =
        max o.text.length (o.pos + s.length) ∨
      o.text.length < o.pos := by
  unfold StringStream.put Buffer.write
  simp only [List.length_append, List.length_take,
    List.length_drop]
  omega

/- The position is not behind the end of the buffer. -/
def Inside (w : World) : Prop :=
  w.logger.mNull.pos ≤ w.logger.mNull.text.length

theorem Wrote.inside
    {w w' : World} {out : Option Color.Buf}
    {bytes words : Str} (hWrote : Wrote w w' out bytes words)
    (hInside : Inside w) : Inside w' := by
  unfold Inside at hInside ⊢
  by_cases hNone : out = none
  · rw [hWrote.nullPos hNone, hWrote.nullLength hNone]
    exact le_max_right _ _
  · rw [hWrote.nullKept hNone]
    exact hInside

/- The output of one item. -/
theorem wrote_item
    {w : World} (hInside : Inside w)
    (out : Option Color.Buf) {item : Color.Item}
    {bytes : Str}
    (hBytes :
      ∀ b, out = some b →
        Color.Appends (w.stream b)
          (item.after (Color.isTTYStream w.detection b)
            (w.stream b))
          bytes) :
    Wrote w (write w out item) out bytes item.words := by
  cases out with
  | none =>
      have hLength :=
        (length_put w.logger.mNull item.words).resolve_right
          (Nat.not_lt.mpr hInside)
      exact
        { detection := rfl
          channels := rfl
          state := rfl
          common := rfl
          others := fun _ _ => rfl
          target := by simp
          nullKept := fun hSome => absurd rfl hSome
          nullPos := fun _ => rfl
          nullLength := fun _ => hLength }
  | some b =>
      refine
        { detection := rfl
          channels := rfl
          state := rfl
          common := rfl
          others := ?_
          target := ?_
          nullKept := fun _ => rfl
          nullPos := by simp
          nullLength := by simp }
      · intro b' hOther
        apply Function.update_of_ne
        rintro rfl
        exact hOther rfl
      · intro b' hTarget
        cases hTarget
        have hSelf :
            (write w (some b) item).stream b =
              item.after (Color.isTTYStream w.detection b)
                (w.stream b) :=
          Function.update_self _ _ _
        rw [hSelf]
        exact hBytes b rfl

theorem wrote_text
    {w : World} (hUnpadded : Unpadded w) (hInside : Inside w)
    (out : Option Color.Buf) (s : Str) :
    Wrote w (write w out (.text s)) out s s :=
  wrote_item hInside out fun b _ =>
    Color.appends_putString (hUnpadded b) s

/- A code is only written to a terminal. -/
def codeOn
    (w : World) (out : Option Color.Buf) (code : ANSICode) :
    Str :=
  match out with
  | some b =>
      if Color.isTTYStream w.detection b then
        buildAnsiCommand [code]
      else []
  | none => []

theorem wrote_code
    {w : World} (hUnpadded : Unpadded w) (hInside : Inside w)
    (out : Option Color.Buf) {item : Color.Item}
    {code : ANSICode} (hWords : item.words = [])
    (hAfter :
      ∀ tty o,
        item.after tty o =
          if tty then o.putString (buildAnsiCommand [code])
          else o) :
    Wrote w (write w out item) out (codeOn w out code) [] := by
  rw [← hWords]
  apply wrote_item hInside
  rintro b rfl
  rw [hAfter]
  simp only [codeOn]
  cases Color.isTTYStream w.detection b with
  | false => exact Color.appends_refl (hUnpadded b)
  | true => exact Color.appends_putString (hUnpadded b) _

/- With a colour, if the state says there is a terminal. -/
theorem wrote_code_if
    {w : World} (hUnpadded : Unpadded w) (hInside : Inside w)
    (out : Option Color.Buf) (isTTY : Bool)
    (item : Color.Item) (code : ANSICode)
    (hWords : item.words = [])
    (hAfter :
      ∀ tty o,
        item.after tty o =
          if tty then o.putString (buildAnsiCommand [code])
          else o) :
    Wrote w (if isTTY then write w out item else w) out
      (if isTTY then codeOn w out code else []) [] := by
  cases isTTY with
  | true =>
      exact
        wrote_code hUnpadded hInside out hWords hAfter
  | false =>
      refine
        { detection := rfl
          channels := rfl
          state := rfl
          common := rfl
          others := fun _ _ => rfl
          target := fun b _ => Color.appends_refl (hUnpadded b)
          nullKept := fun _ => rfl
          nullPos := fun _ => rfl
          nullLength := fun _ => (max_eq_left hInside).symm }

/- The world in which a call starts to write. -/
def opened (w : World) (channel : ILogger.Channel) : World :=
  if w.logger.channels.enabled channel then w
  else getNoopStream w

theorem opened_eq
    (w : World) (channel : ILogger.Channel) :
    (opened w channel).detection = w.detection ∧
      (opened w channel).stream = w.stream ∧
      (opened w channel).logger.channels =
        w.logger.channels ∧
      (opened w channel).logger.state = w.logger.state ∧
      (opened w channel).logger.mCommonPrefix =
        w.logger.mCommonPrefix := by
  unfold opened
  split
  · exact ⟨rfl, rfl, rfl, rfl, rfl⟩
  · exact ⟨rfl, rfl, rfl, rfl, rfl⟩

theorem inside_opened
    {w : World} (hInside : Inside w)
    (channel : ILogger.Channel) :
    Inside (opened w channel) := by
  unfold opened
  split
  · exact hInside
  · exact Nat.zero_le _

/- The colour of the label, and the default behind it. -/
theorem codes_eq
    (w : World) (channel : ILogger.Channel) (text : Str)
    {b : Color.Buf}
    (hTarget : (message w channel text).target = some b)
    (pre post : Str) (code code' : ANSICode) :
    (if (w.logger.state channel).isTTY then
          codeOn w (some b) code else []) ++ pre ++
        (if (w.logger.state channel).isTTY then
          codeOn w (some b) code' else []) ++ post =
      if (message w channel text).mark.isSome then
        buildAnsiCommand [code] ++ pre ++
          buildAnsiCommand [code'] ++ post
      else pre ++ post := by
  have hStream : (w.logger.state channel).stream = b := by
    simp only [message] at hTarget
    split_ifs at hTarget with hEnabled
    exact Option.some.inj hTarget
  simp only [message, codeOn, hStream]
  cases (w.logger.state channel).isTTY <;>
    cases Color.isTTYStream w.detection b <;> simp

/- Only what is known of the terminals counts. -/
theorem codeOn_congr
    {w w' : World} (hSame : w'.detection = w.detection)
    (out : Option Color.Buf) (code : ANSICode) :
    codeOn w' out code = codeOn w out code := by
  simp only [codeOn, hSame]

/- A label behind its prefix and between the two codes. -/
def writeLabel
    (w : World) (out : Option Color.Buf) (isTTY : Bool)
    (spec : ColorSpec) (pre name : Str) : World :=
  let w := if isTTY then write w out (.color spec) else w
  let w := write (write w out (.text pre)) out (.text name)
  if isTTY then write w out (.control .defaultFgColor)
  else w

theorem wrote_label
    {w : World} (hUnpadded : Unpadded w) (hInside : Inside w)
    (out : Option Color.Buf) (isTTY : Bool)
    (spec : ColorSpec) (pre name : Str) :
    Wrote w (writeLabel w out isTTY spec pre name) out
      ((if isTTY then codeOn w out (getAnsiColorCode spec)
            else []) ++ pre ++ name ++
        if isTTY then
          codeOn w out TermControl.defaultFgColor.raw
        else [])
      (pre ++ name) := by
  have hColor :=
    wrote_code_if hUnpadded hInside out isTTY (.color spec)
      (getAnsiColorCode spec) rfl
      (fun tty o => by cases tty <;> rfl)
  have hPre :=
    hColor.trans
      (wrote_text (hColor.unpadded hUnpadded)
        (hColor.inside hInside) out pre)
  have hName :=
    hPre.trans
      (wrote_text (hPre.unpadded hUnpadded)
        (hPre.inside hInside) out name)
  have hDefault :=
    hName.trans
      (wrote_code_if (hName.unpadded hUnpadded)
        (hName.inside hInside) out isTTY
        (.control .defaultFgColor)
        TermControl.defaultFgColor.raw rfl
        (fun tty o => by cases tty <;> rfl))
  refine hDefault.congr ?_ ?_
  · intro b _
    rw [codeOn_congr hName.detection]
  · rw [List.nil_append, List.append_nil]

theorem common_write
    (w : World) (out : Option Color.Buf)
    (item : Color.Item) :
    (write w out item).logger.mCommonPrefix =
      w.logger.mCommonPrefix := by
  cases out <;> rfl

/- The stream of a channel comes with the label on it. -/
theorem getStream_eq
    (w : World) (channel : ILogger.Channel) (text : Str) :
    getStream w channel =
      (writeLabel (opened w channel)
          (message w channel text).target
          (w.logger.state channel).isTTY (color channel)
          w.logger.mCommonPrefix (label channel),
        (message w channel text).target) := by
  have hCommon := (opened_eq w channel).2.2.2.2
  unfold writeLabel
  rw [← hCommon]
  cases hTTY : (w.logger.state channel).isTTY with
  | true =>
      rw [if_pos rfl, if_pos rfl, ←
        common_write (opened w channel)
          (message w channel text).target
          (.color (color channel))]
      simp only [getStream, hTTY, if_true]
      rfl
  | false =>
      rw [if_neg Bool.false_ne_true,
        if_neg Bool.false_ne_true]
      simp only [getStream, hTTY]
      rfl

/- The bytes of a message that goes to a stream. -/
theorem encoded_eq
    (w : World) (channel : ILogger.Channel) (text : Str)
    {b : Color.Buf}
    (hTarget : (message w channel text).target = some b) :
    (if (w.logger.state channel).isTTY then
            codeOn w (some b) (getAnsiColorCode (color channel))
          else []) ++ w.logger.mCommonPrefix ++
          label channel ++
        (if (w.logger.state channel).isTTY then
          codeOn w (some b) TermControl.defaultFgColor.raw
        else []) ++ text =
      encoded (message w channel text) := by
  have hEq :=
    codes_eq w channel text hTarget
      (w.logger.mCommonPrefix ++ label channel) text
      (getAnsiColorCode (color channel))
      TermControl.defaultFgColor.raw
  simp only [List.append_assoc] at hEq ⊢
  rw [hEq]
  unfold encoded
  simp only [message]
  split <;> simp_all

/- A call writes its message, coloured or not. -/
theorem wrote_log
    {w : World} (hUnpadded : Unpadded w) (hInside : Inside w)
    (channel : ILogger.Channel) (text : Str) :
    Wrote (opened w channel) (log w channel text)
      (message w channel text).target
      (encoded (message w channel text))
      ((message w channel text).label ++ text) := by
  rcases opened_eq w channel with
    ⟨hDetection, hStream, -, -, -⟩
  have hStart : Unpadded (opened w channel) := by
    intro b
    rw [hStream]
    exact hUnpadded b
  have hLabel :=
    wrote_label hStart (inside_opened hInside channel)
      (message w channel text).target
      (w.logger.state channel).isTTY (color channel)
      w.logger.mCommonPrefix (label channel)
  have hText :=
    hLabel.trans
      (wrote_text (hLabel.unpadded hStart)
        (hLabel.inside (inside_opened hInside channel))
        (message w channel text).target text)
  unfold log
  rw [getStream_eq w channel text]
  refine hText.congr ?_ rfl
  intro b hTarget
  rw [hTarget, codeOn_congr hDetection,
    codeOn_congr hDetection]
  exact encoded_eq w channel text hTarget

------------------------------------------------------------
-- What a Terminal Shows
------------------------------------------------------------

theorem plain_label (channel : ILogger.Channel) :
    Plain (label channel) := by
  cases channel <;> decide

theorem plain_append
    {s t : Str} (hFirst : Plain s) (hSecond : Plain t) :
    Plain (s ++ t) := by
  intro c hMem
  rcases List.mem_append.mp hMem with hLeft | hRight
  · exact hFirst c hLeft
  · exact hSecond c hRight

/- The marks that a logger has. -/
def Marked (m : Message) : Prop :=
  ∀ spec, m.mark = some spec → ∃ c, spec = frontColor c

theorem marked_message
    (w : World) (channel : ILogger.Channel) (text : Str) :
    Marked (message w channel text) := by
  intro spec hMark
  simp only [message] at hMark
  split_ifs at hMark
  rw [← Option.some.inj hMark]
  cases channel
  · exact ⟨.red, rfl⟩
  · exact ⟨.yellow, rfl⟩
  · exact ⟨.white, rfl⟩
  · exact ⟨.cyan, rfl⟩

/- A message leaves the attributes as they were. -/
theorem feed_encoded
    {m : Message} (hMarked : Marked m)
    (hLabel : Plain m.label) (hText : Plain m.text)
    (shown : List (UInt8 × Color.Attrs)) :
    feed Color.meaning ⟨.ground, .default, shown⟩
        (encoded m) =
      ⟨.ground, .default, shown ++ m.display⟩ := by
  cases hMark : m.mark with
  | none =>
      have hAttrs : m.labelAttrs = .default := by
        simp only [Message.labelAttrs, hMark]
      have hBytes : encoded m = m.label ++ m.text := by
        simp only [encoded, hMark]
      rw [hBytes, feed_append, feed_plain _ hLabel,
        feed_plain _ hText, Message.display, hAttrs,
        List.append_assoc]
  | some spec =>
      rcases hMarked spec hMark with ⟨c, rfl⟩
      have hOn :
          apply Color.meaning
              ([getAnsiColorCode (frontColor c)].map
                UInt64.toNat)
              .default =
            m.labelAttrs := by
        simp only [Message.labelAttrs, hMark]
        cases c <;> rfl
      have hOff :
          apply Color.meaning
              ([TermControl.defaultFgColor.raw].map
                UInt64.toNat)
              m.labelAttrs =
            .default := by
        simp only [Message.labelAttrs, hMark]
        rfl
      have hBytes :
          encoded m =
            buildAnsiCommand
                  [getAnsiColorCode (frontColor c)] ++
                m.label ++
              buildAnsiCommand
                [TermControl.defaultFgColor.raw] ++
              m.text := by
        simp only [encoded, hMark]
      rw [hBytes, feed_append,
        Color.feed_around (by simp) (by simp) hLabel, hOn,
        hOff, feed_plain _ hText, Message.display,
        List.append_assoc]

------------------------------------------------------------
-- Sessions
------------------------------------------------------------

/- What a program does with its logger. -/
inductive Op where
| log (channel : ILogger.Channel) (text : Str)
| setChannels (error warning info debug : Bool)
| setPrefix (text : Str)
| configFromString (locale : Locale) (var : Split.View)
| refresh
    (getEnvVar : Str → Option Str) (output error : Sys Unit)

def step (w : World) : Op → World
| .log channel text => log w channel text
| .setChannels error warning info debug =>
    { w with
      logger :=
        { w.logger with
          channels := ⟨error, warning, info, debug⟩ } }
| .setPrefix text =>
    { w with
      logger := { w.logger with mCommonPrefix := text } }
| .configFromString locale var =>
    { w with
      logger :=
        { w.logger with
          channels :=
            ((ILogger.configFromString locale var).run
              w.logger.channels).2 } }
| .refresh getEnvVar output error =>
    { w with
      detection :=
        ((Color.refreshTTYDetection getEnvVar output error :
            Method Color.Detection Unit).run
          w.detection).2 }

def run (w : World) (ops : List Op) : World :=
  ops.foldl step w

/- The messages that one stream gets, or nobody. -/
def messages (out : Option Color.Buf) :
    World → List Op → List Message
| _, [] => []
| w, .log channel text :: ops =>
    (if (message w channel text).target = out then
      [message w channel text] else []) ++
      messages out (log w channel text) ops
| w, op :: ops => messages out (step w op) ops

/- There are no escape characters in what is logged. -/
def Op.PlainText : Op → Prop
| .log _ text => Plain text
| .setPrefix text => Plain text
| _ => True

/- What holds between the calls. -/
structure Ready (w : World) : Prop where
  unpadded : Unpadded w
  inside : Inside w
  common : Plain w.logger.mCommonPrefix

theorem Ready.step
    {w : World} (hReady : Ready w)
    {op : Op} (hPlain : op.PlainText) :
    Ready (step w op) := by
  cases op with
  | log channel text =>
      rcases opened_eq w channel with
        ⟨-, hStream, -, -, hCommon⟩
      have hWrote :=
        wrote_log hReady.unpadded hReady.inside channel text
      refine ⟨hWrote.unpadded ?_, hWrote.inside ?_, ?_⟩
      · intro b
        rw [hStream]
        exact hReady.unpadded b
      · exact inside_opened hReady.inside channel
      · change Plain (log w channel text).logger.mCommonPrefix
        rw [hWrote.common, hCommon]
        exact hReady.common
  | setChannels error warning info debug =>
      exact ⟨hReady.unpadded, hReady.inside, hReady.common⟩
  | setPrefix text =>
      exact ⟨hReady.unpadded, hReady.inside, hPlain⟩
  | configFromString locale var =>
      exact ⟨hReady.unpadded, hReady.inside, hReady.common⟩
  | refresh getEnvVar output error =>
      exact ⟨hReady.unpadded, hReady.inside, hReady.common⟩

/- One call, as the terminal of a stream sees it. -/
theorem shown_log
    {w : World} (hReady : Ready w)
    (channel : ILogger.Channel) {text : Str}
    (hPlain : Plain text) (buf : Color.Buf)
    (shown : List (UInt8 × Color.Attrs)) :
    ∃ out,
      Color.Appends (w.stream buf)
          ((log w channel text).stream buf) out ∧
        feed Color.meaning ⟨.ground, .default, shown⟩ out =
          ⟨.ground, .default,
            shown ++
              (if (message w channel text).target = some buf
                then [message w channel text]
                else []).flatMap Message.display⟩ := by
  have hWrote :=
    wrote_log hReady.unpadded hReady.inside channel text
  have hStream := (opened_eq w channel).2.1
  by_cases hTarget :
      (message w channel text).target = some buf
  · have hAppends := hWrote.target buf hTarget
    rw [hStream] at hAppends
    refine ⟨_, hAppends, ?_⟩
    have hLabel :
        Plain (message w channel text).label :=
      plain_append hReady.common (plain_label channel)
    rw [feed_encoded (marked_message w channel text) hLabel
      hPlain, if_pos hTarget]
    simp
  · refine ⟨[], ?_, ?_⟩
    · rw [hWrote.others buf hTarget, hStream]
      exact Color.appends_refl (hReady.unpadded buf)
    · rw [if_neg hTarget]
      simp

theorem exists_shown
    {ops : List Op} (hPlain : ∀ op ∈ ops, op.PlainText)
    {w : World} (hReady : Ready w) (buf : Color.Buf)
    (shown : List (UInt8 × Color.Attrs)) :
    ∃ out,
      Color.Appends (w.stream buf)
          ((run w ops).stream buf) out ∧
        feed Color.meaning ⟨.ground, .default, shown⟩ out =
          ⟨.ground, .default,
            shown ++
              (messages (some buf) w ops).flatMap
                Message.display⟩ := by
  induction ops generalizing w shown with
  | nil =>
      exact
        ⟨[], Color.appends_refl (hReady.unpadded buf),
          by simp [messages]⟩
  | cons op ops ih =>
      have hRest : ∀ op' ∈ ops, op'.PlainText :=
        fun op' hMem => hPlain op' (List.mem_cons_of_mem op hMem)
      have hNext := hReady.step (hPlain op List.mem_cons_self)
      cases op with
      | log channel text =>
          rcases
            shown_log hReady channel
              (hPlain _ List.mem_cons_self) buf shown with
            ⟨out, hAppends, hFeed⟩
          rcases ih hRest hNext _ with ⟨out', hMore, hFeed'⟩
          refine ⟨out ++ out', hAppends.trans hMore, ?_⟩
          rw [feed_append, hFeed, hFeed', messages,
            List.flatMap_append, List.append_assoc]
          rfl
      | setChannels error warning info debug =>
          exact ih hRest hNext shown
      | setPrefix text => exact ih hRest hNext shown
      | configFromString locale var =>
          exact ih hRest hNext shown
      | refresh getEnvVar output error =>
          exact ih hRest hNext shown

/- One call, as far as the buffer for nobody goes. -/
theorem length_null_log
    {w : World} (hReady : Ready w)
    (channel : ILogger.Channel) (text : Str) {bound : Nat}
    (hBound : w.logger.mNull.text.length ≤ bound)
    (hSize :
      (message w channel text).target = none →
        (message w channel text).size ≤ bound) :
    (log w channel text).logger.mNull.text.length ≤
      bound := by
  have hWrote :=
    wrote_log hReady.unpadded hReady.inside channel text
  by_cases hTarget : (message w channel text).target = none
  · have hEnabled :
        ¬ w.logger.channels.enabled channel = true := by
      intro hOn
      simp [message, hOn] at hTarget
    have hOpened : opened w channel = getNoopStream w :=
      if_neg hEnabled
    have hLe := hSize hTarget
    rw [hWrote.nullLength hTarget, hOpened]
    change
      max w.logger.mNull.text.length (0 + _) ≤ bound
    rw [List.length_append, Nat.zero_add]
    exact max_le hBound hLe
  · have hEnabled :
        w.logger.channels.enabled channel = true := by
      by_contra hOff
      exact hTarget (by simp [message, hOff])
    have hOpened : opened w channel = w := if_pos hEnabled
    rw [hWrote.nullKept hTarget, hOpened]
    exact hBound

theorem length_null_run
    {ops : List Op} (hPlain : ∀ op ∈ ops, op.PlainText)
    {w : World} (hReady : Ready w) {bound : Nat}
    (hBound : w.logger.mNull.text.length ≤ bound)
    (hSizes : ∀ m ∈ messages none w ops, m.size ≤ bound) :
    (run w ops).logger.mNull.text.length ≤ bound := by
  induction ops generalizing w with
  | nil => exact hBound
  | cons op ops ih =>
      have hRest : ∀ op' ∈ ops, op'.PlainText :=
        fun op' hMem => hPlain op' (List.mem_cons_of_mem op hMem)
      have hNext := hReady.step (hPlain op List.mem_cons_self)
      cases op with
      | log channel text =>
          refine ih hRest hNext ?_ ?_
          · apply
              length_null_log hReady channel text hBound
            intro hTarget
            apply hSizes
            simp [messages, hTarget]
          · intro m hMem
            apply hSizes
            rw [messages]
            exact List.mem_append_right _ hMem
      | setChannels error warning info debug =>
          exact ih hRest hNext hBound hSizes
      | setPrefix text => exact ih hRest hNext hBound hSizes
      | configFromString locale var =>
          exact ih hRest hNext hBound hSizes
      | refresh getEnvVar output error =>
          exact ih hRest hNext hBound hSizes

/-
  A program that logs, reconfigures its logger and repeats
  the check for terminals: the terminal of a stream shows
  the messages of the channels that were enabled for it,
  each label in the colour of its channel and each text with
  the default attributes. What the disabled channels got
  takes no more memory than the longest of their messages.
-/
theorem session_logged
    {ops : List Op} (hPlain : ∀ op ∈ ops, op.PlainText)
    {w : World} (hReady : Ready w) (buf : Color.Buf) :
    (∃ out,
      ((run w ops).stream buf).text =
          (w.stream buf).text ++ out ∧
        feed Color.meaning (.ready .default) out =
          ⟨.ground, .default,
            (messages (some buf) w ops).flatMap
              Message.display⟩) ∧
      ∀ bound,
        w.logger.mNull.text.length ≤ bound →
          (∀ m ∈ messages none w ops, m.size ≤ bound) →
            (run w ops).logger.mNull.text.length ≤
              bound := by
  refine ⟨?_, fun bound => length_null_run hPlain hReady⟩
  rcases exists_shown hPlain hReady buf [] with
    ⟨out, hAppends, hFeed⟩
  exact ⟨out, hAppends.text, hFeed⟩

/- The logger of a program that runs in a terminal. -/
def onTerminal : World where
  detection := ⟨true, true⟩
  stream _ := Color.fresh
  logger := ((std fun _ => .ok ()).run blank).2

def threeCalls : List Op :=
  [.log .info (str "up"), .log .debug (str "quiet"),
    .setChannels true true false true,
    .log .error (str "down")]

theorem session_logged_threeCalls :
    (∃ out,
      ((run onTerminal threeCalls).stream .cerr).text =
          (onTerminal.stream .cerr).text ++ out ∧
        feed Color.meaning (.ready .default) out =
          ⟨.ground, .default,
            (messages (some .cerr) onTerminal
              threeCalls).flatMap Message.display⟩) ∧
      ∀ bound,
        onTerminal.logger.mNull.text.length ≤ bound →
          (∀ m ∈ messages none onTerminal threeCalls,
            m.size ≤ bound) →
            (run onTerminal
                threeCalls).logger.mNull.text.length ≤
              bound := by
  refine
    @session_logged threeCalls ?_ _
      ⟨fun _ => le_refl 0, le_refl 0, by decide⟩ .cerr
  intro op hMem
  simp only [threeCalls, List.mem_cons, List.not_mem_nil,
    or_false] at hMem
  rcases hMem with rfl | rfl | rfl | rfl
  · change Plain (str "up")
    decide
  · change Plain (str "quiet")
    decide
  · trivial
  · change Plain (str "down")
    decide

end Logger

end Cosmos
