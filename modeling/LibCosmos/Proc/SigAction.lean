import LibCosmos.FS.FileDescriptor
import LibCosmos.Foundation.Machine

/-
  Signal actions, the callback tables and the dispositions
  of the kernel (`src/proc/SigAction.cxx`,
  `include/proc/SigAction.hxx`).

  Next to the library runs an account of what is meant: the
  disposition that every object was given and the one that
  is in force for every signal. The library is correct as
  far as its state is linked to that account.

  Main declarations:
    * `SigAction.setAction`, `SigAction.getAction`,
      `SigAction.deliver`
    * `SigAction.Intent`, `SigAction.Linked`
    * `SigAction.Conforming`, `SigAction.Slip`
    * `SigAction.conforming_along_iff`
-/

namespace Cosmos

------------------------------------------------------------
-- Raw Actions and Objects
------------------------------------------------------------

/- The address of a callback function, 0 is `nullptr`. -/
abbrev CallbackAddress := UInt64

/- `SignalNr`. -/
abbrev SignalNr := Int32

/-
  What `sa_handler` and `sa_sigaction`, which share their
  memory, can hold: the constants of the system, the two
  entry points of the library or another function.
-/
inductive RawHandler where
| dfl
| ign
| simpleEntry
| infoEntry
| foreign (function : CallbackAddress)
deriving DecidableEq, Repr

/- `struct sigaction`. -/
structure RawAction where
  saHandler : RawHandler
  saFlags : BitVec 32
  saMask : UInt64
deriving DecidableEq, Repr

/- `std::variant<SimpleHandler, InfoHandler>`. -/
inductive SigHandler where
| simple (callback : CallbackAddress)
| info (callback : CallbackAddress)
deriving DecidableEq, Repr

structure SigAction where
  mRaw : RawAction
  mHandler : SigHandler
deriving DecidableEq, Repr

namespace SigAction

/- `SA_SIGINFO` and `SA_RESETHAND`. -/
def saSiginfo : BitVec 32 := 4#32
def saResethand : BitVec 32 := 0x80000000#32

def hasFlag (flags flag : BitVec 32) : Bool :=
  flags &&& flag != 0#32

def hasSiginfo (a : SigAction) : Bool :=
  hasFlag a.mRaw.saFlags saSiginfo

/- Special values of a simple handler. -/
def DEFAULT : CallbackAddress := 0
def IGNORE : CallbackAddress := 1
def UNKNOWN : CallbackAddress := 2

theorem hasFlag_or (flags flag : BitVec 32)
    (hFlag : flag ≠ 0#32) :
    hasFlag (flags ||| flag) flag = true := by
  have hAbsorb : (flags ||| flag) &&& flag = flag := by
    apply BitVec.eq_of_getLsbD_eq
    intro i _
    rw [BitVec.getLsbD_and, BitVec.getLsbD_or]
    cases flags.getLsbD i <;> cases flag.getLsbD i <;> rfl
  unfold hasFlag
  rw [hAbsorb]
  simpa using hFlag

theorem hasFlag_and_not (flags flag : BitVec 32) :
    hasFlag (flags &&& ~~~flag) flag = false := by
  have hNone : (flags &&& ~~~flag) &&& flag = 0#32 := by
    apply BitVec.eq_of_getLsbD_eq
    intro i hLt
    rw [BitVec.getLsbD_and, BitVec.getLsbD_and,
      BitVec.getLsbD_not, BitVec.getLsbD_zero]
    cases flags.getLsbD i <;> cases flag.getLsbD i <;>
      simp
  unfold hasFlag
  rw [hNone]
  rfl

theorem hasFlag_zero (flag : BitVec 32) :
    hasFlag 0#32 flag = false := by
  unfold hasFlag
  rw [BitVec.zero_and]
  rfl

------------------------------------------------------------
-- Operations on One Object
------------------------------------------------------------

/- `SigAction::clear`. -/
def clear (a : SigAction) : SigAction :=
  { a with mRaw := ⟨.dfl, 0#32, 0⟩ }

/- A default-constructed object. -/
def empty : SigAction where
  mRaw := ⟨.dfl, 0#32, 0⟩
  mHandler := .simple DEFAULT

/- `SigAction::setFlags`. -/
def setFlags (flags : BitVec 32) (a : SigAction) :
    SigAction :=
  let hadSiginfo := a.hasSiginfo
  { a with
    mRaw :=
      { a.mRaw with
        saFlags :=
          if hadSiginfo then flags ||| saSiginfo
          else flags &&& ~~~saSiginfo } }

/- `SigAction::setHandler(SimpleHandler)`. -/
def setHandlerSimple (handler : CallbackAddress) :
    Method SigAction Unit :=
  if handler = UNKNOWN then
    Command.raise
      (.usageError (str "Cannot set UNKNOWN type handler"))
  else
    Command.modify fun a =>
      { mRaw :=
          { a.mRaw with
            saFlags := a.mRaw.saFlags &&& ~~~saSiginfo
            saHandler :=
              if handler = IGNORE then .ign
              else if handler = DEFAULT then .dfl
              else .simpleEntry }
        mHandler := .simple handler }

/- `SigAction::setHandler(InfoHandler)`. -/
def setHandlerInfo (handler : CallbackAddress) :
    Method SigAction Unit :=
  Command.modify fun a =>
    { mRaw :=
        { a.mRaw with
          saFlags := a.mRaw.saFlags ||| saSiginfo
          saHandler := .infoEntry }
      mHandler := .info handler }

/- `SigAction::updateFromOld`. -/
def updateFromOld
    (info simple : CallbackAddress) (a : SigAction) :
    SigAction :=
  { a with
    mHandler :=
      if a.hasSiginfo then
        if a.mRaw.saHandler ≠ .infoEntry then
          .simple UNKNOWN
        else
          .info info
      else
        match a.mRaw.saHandler with
        | .dfl => .simple DEFAULT
        | .ign => .simple IGNORE
        | .simpleEntry => .simple simple
        | _ => .simple UNKNOWN }

def getSimpleHandler (a : SigAction) :
    Option CallbackAddress :=
  match a.mHandler with
  | .simple callback => some callback
  | .info _ => none

def getInfoHandler (a : SigAction) :
    Option CallbackAddress :=
  match a.mHandler with
  | .simple _ => none
  | .info callback => some callback

------------------------------------------------------------
-- Operations on the Process
------------------------------------------------------------

/- The object at an address. -/
abbrev ObjectId := Nat

/-
  The objects of the process, the actions that the kernel
  stores, and the two tables of callbacks.
-/
structure World where
  object : ObjectId → SigAction
  kernel : SignalNr → RawAction
  simpleHandlers : SignalNr → CallbackAddress
  infoHandlers : SignalNr → CallbackAddress

namespace World

def setObject (o : ObjectId) (a : SigAction) (w : World) :
    World :=
  { w with object := Function.update w.object o a }

/- A method of one of the objects. -/
def onObject (o : ObjectId) (m : Method SigAction Unit) :
    Method World Unit :=
  m.focus (fun w => w.object o) (setObject o)

/- The kernel stores an action. -/
def setKernel (sig : SignalNr) (raw : RawAction) (w : World) :
    World :=
  { w with kernel := Function.update w.kernel sig raw }

/- What happens to the object of an output pointer. -/
def onOutput
    (old : Option ObjectId) (f : SigAction → SigAction)
    (w : World) : World :=
  { w with
    object := fun o =>
      if o ∈ old then f (w.object o) else w.object o }

/- Store the callback of an object for a signal. -/
def storeHandler
    (sig : SignalNr) (handler : SigHandler) (w : World) :
    World :=
  match handler with
  | .simple callback =>
      if callback = IGNORE ∨ callback = DEFAULT ∨
          callback = UNKNOWN then
        { w with
          simpleHandlers :=
            Function.update w.simpleHandlers sig 0
          infoHandlers :=
            Function.update w.infoHandlers sig 0 }
      else
        { w with
          simpleHandlers :=
            Function.update w.simpleHandlers sig callback }
  | .info callback =>
      { w with
        infoHandlers :=
          Function.update w.infoHandlers sig callback }

end World

/-
  `signal::set_action`. The kernel reads the new action
  before it writes the old one, which may be the same
  object.
-/
def setAction
    (sig : SignalNr) (action : ObjectId)
    (old : Option ObjectId) (answer : Sys Unit) :
    Method World Unit := do
  let w ← Command.get
  check "sigaction()" answer
  Command.modify (World.setKernel sig (w.object action).mRaw)
  Command.modify
    (World.onOutput old fun a =>
      { a with mRaw := w.kernel sig })
  let w ← Command.get
  let oldSimple := w.simpleHandlers sig
  let oldInfo := w.infoHandlers sig
  Command.modify
    (World.storeHandler sig (w.object action).mHandler)
  Command.modify
    (World.onOutput old (updateFromOld oldInfo oldSimple))

/- `signal::get_action`. -/
def getAction
    (sig : SignalNr) (action : ObjectId) (answer : Sys Unit) :
    Method World Unit := do
  let w ← Command.get
  check "sigaction()" answer
  Command.modify
    (World.onOutput (some action) fun a =>
      { a with mRaw := w.kernel sig })
  Command.modify
    (World.onOutput (some action)
      (updateFromOld (w.infoHandlers sig)
        (w.simpleHandlers sig)))

/- The function that a delivery ends up in. -/
inductive Invocation where
| simple (callback : CallbackAddress)
| info (callback : CallbackAddress)
| foreign (function : CallbackAddress)
deriving DecidableEq, Repr

/- `simple_handler` and `info_handler`. -/
def simpleHandler (w : World) (sig : SignalNr) :
    Option Invocation :=
  if w.simpleHandlers sig = 0 then none
  else some (.simple (w.simpleHandlers sig))

def infoHandler (w : World) (sig : SignalNr) :
    Option Invocation :=
  if w.infoHandlers sig = 0 then none
  else some (.info (w.infoHandlers sig))

/- What the kernel runs for a signal. -/
def invoked (w : World) (sig : SignalNr) :
    Option Invocation :=
  match (w.kernel sig).saHandler with
  | .dfl => none
  | .ign => none
  | .simpleEntry => simpleHandler w sig
  | .infoEntry => infoHandler w sig
  | .foreign function => some (.foreign function)

/-
  A delivery. The kernel resets the handler of a one-shot
  action that it runs, and keeps the flags.
-/
def deliver (sig : SignalNr) (w : World) : World :=
  let raw := w.kernel sig
  if hasFlag raw.saFlags saResethand ∧
      raw.saHandler ≠ .dfl ∧ raw.saHandler ≠ .ign then
    w.setKernel sig { raw with saHandler := .dfl }
  else w

------------------------------------------------------------
-- What Is Meant
------------------------------------------------------------

/- What shall happen when a signal is delivered. -/
inductive Disposition where
| default
| ignore
| simple (callback : CallbackAddress)
| info (callback : CallbackAddress)
| foreign (function : CallbackAddress)
deriving DecidableEq, Repr

namespace Disposition

/- The disposition that a simple handler stands for. -/
def ofSimple (handler : CallbackAddress) : Disposition :=
  if handler = IGNORE then .ignore
  else if handler = DEFAULT then .default
  else .simple handler

/- The disposition of an action of another library. -/
def ofForeign : RawHandler → Disposition
| .foreign function => .foreign function
| .ign => .ignore
| _ => .default

/- The handler that is to be reported. -/
def reported : Disposition → SigHandler
| .default => .simple DEFAULT
| .ignore => .simple IGNORE
| .simple callback => .simple callback
| .info callback => .info callback
| .foreign _ => .simple UNKNOWN

/- The callback that is to be invoked. -/
def invocation : Disposition → Option Invocation
| .default => none
| .ignore => none
| .simple callback => some (.simple callback)
| .info callback =>
    if callback = 0 then none else some (.info callback)
| .foreign function => some (.foreign function)

/- A disposition with a function to run. -/
def isHandler : Disposition → Bool
| .default => false
| .ignore => false
| _ => true

end Disposition

/-
  The disposition that every object was last given, and the
  one in force for every signal.
-/
structure Intent where
  chosen : ObjectId → Disposition
  installed : SignalNr → Disposition

/- An operation together with the answer of the kernel. -/
inductive Op where
| setHandlerSimple (o : ObjectId) (handler : CallbackAddress)
| setHandlerInfo (o : ObjectId) (handler : CallbackAddress)
| setFlags (o : ObjectId) (flags : BitVec 32)
| clear (o : ObjectId)
| assign (o other : ObjectId)
| setAction
    (sig : SignalNr) (action : ObjectId)
    (old : Option ObjectId) (answer : Sys Unit)
| getAction
    (sig : SignalNr) (action : ObjectId) (answer : Sys Unit)
| deliver (sig : SignalNr)
| foreign (sig : SignalNr) (raw : RawAction)

def Op.perform : Op → Method World Unit
| .setHandlerSimple o handler =>
    World.onObject o (SigAction.setHandlerSimple handler)
| .setHandlerInfo o handler =>
    World.onObject o (SigAction.setHandlerInfo handler)
| .setFlags o flags =>
    World.onObject o
      (Command.modify (SigAction.setFlags flags))
| .clear o =>
    World.onObject o (Command.modify SigAction.clear)
| .assign o other => do
    let w ← Command.get
    World.onObject o
      (Command.modify fun _ => w.object other)
| .setAction sig action old answer =>
    SigAction.setAction sig action old answer
| .getAction sig action answer =>
    SigAction.getAction sig action answer
| .deliver sig => Command.modify (SigAction.deliver sig)
| .foreign sig raw => Command.modify (World.setKernel sig raw)

/-
  What an operation means. Whether a handler is reset by its
  delivery is a matter of the flags `raw` in force.
-/
def Op.intend (raw : SignalNr → RawAction) (i : Intent) :
    Op → Intent
| .setHandlerSimple o handler =>
    if handler = UNKNOWN then i
    else
      { i with
        chosen :=
          Function.update i.chosen o (.ofSimple handler) }
| .setHandlerInfo o handler =>
    { i with
      chosen := Function.update i.chosen o (.info handler) }
| .setFlags _ _ => i
| .clear o =>
    { i with chosen := Function.update i.chosen o .default }
| .assign o other =>
    { i with
      chosen := Function.update i.chosen o (i.chosen other) }
| .setAction sig action old (.ok ()) =>
    { chosen := fun o =>
        if o ∈ old then i.installed sig else i.chosen o
      installed :=
        Function.update i.installed sig (i.chosen action) }
| .setAction _ _ _ (.error _) => i
| .getAction sig action (.ok ()) =>
    { i with
      chosen :=
        Function.update i.chosen action (i.installed sig) }
| .getAction _ _ (.error _) => i
| .deliver sig =>
    if hasFlag (raw sig).saFlags saResethand ∧
        (i.installed sig).isHandler then
      { i with
        installed :=
          Function.update i.installed sig .default }
    else i
| .foreign sig raw =>
    { i with
      installed :=
        Function.update i.installed sig
          (.ofForeign raw.saHandler) }

/- The library and the account of what is meant. -/
structure Session where
  world : World
  intent : Intent

/- The library did not make this action. -/
def IsForeign (raw : RawAction) : Prop :=
  raw.saHandler ≠ .simpleEntry ∧ raw.saHandler ≠ .infoEntry

/- Nothing was done yet; others may have set actions. -/
def start (kernel : SignalNr → RawAction) : Session where
  world :=
    { object := fun _ => empty
      kernel := kernel
      simpleHandlers := fun _ => 0
      infoHandlers := fun _ => 0 }
  intent :=
    { chosen := fun _ => .default
      installed := fun sig =>
        .ofForeign (kernel sig).saHandler }

def step (s : Session) (op : Op) : Session where
  world := (op.perform.run s.world).2
  intent := op.intend s.world.kernel s.intent

def legal (_ : Session) : Op → Prop
| .foreign _ raw => IsForeign raw
| _ => True

def machine : Machine Session Op where
  legal := legal
  step := step

------------------------------------------------------------
-- Specification
------------------------------------------------------------

/- `SA_SIGINFO` is set iff an info handler is held. -/
def Matched (a : SigAction) : Prop :=
  a.hasSiginfo = true ↔ a.getInfoHandler.isSome = true

/- The object does not stand for a handler of others. -/
def Known (a : SigAction) : Prop :=
  a.mHandler ≠ .simple UNKNOWN

/- The disposition of `sig` is read back into `o`. -/
def Op.Reads (sig : SignalNr) (o : ObjectId) (op : Op) :
    Prop :=
  (∃ action, op = .setAction sig action (some o) (.ok ())) ∨
    op = .getAction sig o (.ok ())

/-
  What is claimed of one operation, with the flags as far as
  `Applies` says.
-/
structure Conforming
    (Applies : SigAction → Prop)
    (s : Session) (op : Op) (s' : Session) : Prop where
  flags :
    ∀ o, Applies (s'.world.object o) →
      Matched (s'.world.object o)
  invokes :
    ∀ sig, op = .deliver sig →
      invoked s.world sig =
        (s.intent.installed sig).invocation
  reports :
    ∀ sig o, op.Reads sig o →
      (s'.world.object o).mHandler =
        (s.intent.installed sig).reported

/- The signal has no handler but the flag of one. -/
def Leftover (raw : RawAction) : Prop :=
  (raw.saHandler = .dfl ∨ raw.saHandler = .ign) ∧
    hasFlag raw.saFlags saSiginfo = true

/-
  An object that holds an info handler is cleared, or a
  disposition is read back whose flags are leftovers.
-/
def Slip (s : Session) (op : Op) : Prop :=
  (∃ o, op = .clear o ∧
    (s.world.object o).getInfoHandler.isSome = true) ∨
  ∃ sig o, op.Reads sig o ∧ Leftover (s.world.kernel sig)

------------------------------------------------------------
-- Links
------------------------------------------------------------

/- A callback function that a user can provide. -/
def IsCallback (callback : CallbackAddress) : Prop :=
  callback ≠ IGNORE ∧ callback ≠ DEFAULT ∧
    callback ≠ UNKNOWN

/- An object stands for a disposition. -/
inductive Carries (a : SigAction) : Disposition → Prop where
| default :
    a.mRaw.saHandler = .dfl → Carries a .default
| ignore :
    a.mRaw.saHandler = .ign → Carries a .ignore
| simple {callback : CallbackAddress} :
    a.mRaw.saHandler = .simpleEntry →
    a.hasSiginfo = false →
    a.mHandler = .simple callback →
    IsCallback callback →
    Carries a (.simple callback)
| info {callback : CallbackAddress} :
    a.mRaw.saHandler = .infoEntry →
    a.hasSiginfo = true →
    a.mHandler = .info callback →
    Carries a (.info callback)
| foreign {function : CallbackAddress} :
    a.mRaw.saHandler = .foreign function →
    a.mHandler = .simple UNKNOWN →
    Carries a (.foreign function)

/- An action with its table entries has a disposition. -/
inductive InForce
    (raw : RawAction) (simple info : CallbackAddress) :
    Disposition → Prop where
| default :
    raw.saHandler = .dfl → InForce raw simple info .default
| ignore :
    raw.saHandler = .ign → InForce raw simple info .ignore
| simple :
    raw.saHandler = .simpleEntry →
    hasFlag raw.saFlags saSiginfo = false →
    IsCallback simple →
    InForce raw simple info (.simple simple)
| info :
    raw.saHandler = .infoEntry →
    hasFlag raw.saFlags saSiginfo = true →
    InForce raw simple info (.info info)
| foreign {function : CallbackAddress} :
    raw.saHandler = .foreign function →
    InForce raw simple info (.foreign function)

/- The library is where the account says it should be. -/
structure Linked (s : Session) : Prop where
  objects :
    ∀ o, Carries (s.world.object o) (s.intent.chosen o)
  signals :
    ∀ sig, InForce (s.world.kernel sig)
      (s.world.simpleHandlers sig) (s.world.infoHandlers sig)
      (s.intent.installed sig)
  matched :
    ∀ o, Known (s.world.object o) →
      Matched (s.world.object o)

theorem matched_simple
    {a : SigAction} {callback : CallbackAddress}
    (hFlag : a.hasSiginfo = false)
    (hHandler : a.mHandler = .simple callback) :
    Matched a := by
  unfold Matched getInfoHandler
  rw [hFlag, hHandler]
  simp

theorem matched_info
    {a : SigAction} {callback : CallbackAddress}
    (hFlag : a.hasSiginfo = true)
    (hHandler : a.mHandler = .info callback) :
    Matched a := by
  unfold Matched getInfoHandler
  rw [hFlag, hHandler]
  simp

/- What is in force is what gets invoked. -/
theorem InForce.invoked_eq
    {w : World} {sig : SignalNr} {d : Disposition}
    (hForce :
      InForce (w.kernel sig) (w.simpleHandlers sig)
        (w.infoHandlers sig) d) :
    invoked w sig = d.invocation := by
  unfold invoked
  cases hForce with
  | default hRaw =>
      rw [hRaw]
      rfl
  | ignore hRaw =>
      rw [hRaw]
      rfl
  | simple hRaw _ hCallback =>
      rw [hRaw]
      unfold simpleHandler
      exact if_neg hCallback.2.1
  | info hRaw _ =>
      rw [hRaw]
      rfl
  | foreign hRaw =>
      rw [hRaw]
      rfl

/-
  An action that is read back without leftovers tells the
  disposition in force.
-/
theorem InForce.read_back
    {a : SigAction} {simple info : CallbackAddress}
    {d : Disposition}
    (hForce : InForce a.mRaw simple info d)
    (hClean : ¬ Leftover a.mRaw) :
    (updateFromOld info simple a).mHandler = d.reported ∧
      Carries (updateFromOld info simple a) d ∧
      (Known (updateFromOld info simple a) →
        Matched (updateFromOld info simple a)) := by
  have hRaw : (updateFromOld info simple a).mRaw = a.mRaw :=
    rfl
  have hSame :
      (updateFromOld info simple a).hasSiginfo =
        a.hasSiginfo := rfl
  cases hForce with
  | default hHandler =>
      have hFlag : a.hasSiginfo = false := by
        by_contra hSet
        exact
          hClean ⟨Or.inl hHandler, Bool.of_not_eq_false hSet⟩
      have hNew :
          (updateFromOld info simple a).mHandler =
            .simple DEFAULT := by
        unfold updateFromOld
        rw [if_neg (by simp [hFlag]), hHandler]
      exact
        ⟨hNew, .default hHandler, fun _ =>
          matched_simple (hSame.trans hFlag) hNew⟩
  | ignore hHandler =>
      have hFlag : a.hasSiginfo = false := by
        by_contra hSet
        exact
          hClean ⟨Or.inr hHandler, Bool.of_not_eq_false hSet⟩
      have hNew :
          (updateFromOld info simple a).mHandler =
            .simple IGNORE := by
        unfold updateFromOld
        rw [if_neg (by simp [hFlag]), hHandler]
      exact
        ⟨hNew, .ignore hHandler, fun _ =>
          matched_simple (hSame.trans hFlag) hNew⟩
  | simple hHandler hFlag hCallback =>
      have hFlag : a.hasSiginfo = false := hFlag
      have hNew :
          (updateFromOld info simple a).mHandler =
            .simple simple := by
        unfold updateFromOld
        rw [if_neg (by simp [hFlag]), hHandler]
      exact
        ⟨hNew,
          .simple hHandler (hSame.trans hFlag) hNew
            hCallback,
          fun _ =>
            matched_simple (hSame.trans hFlag) hNew⟩
  | info hHandler hFlag =>
      have hFlag : a.hasSiginfo = true := hFlag
      have hNew :
          (updateFromOld info simple a).mHandler =
            .info info := by
        unfold updateFromOld
        rw [if_pos hFlag, if_neg (by simp [hHandler])]
      exact
        ⟨hNew, .info hHandler (hSame.trans hFlag) hNew,
          fun _ => matched_info (hSame.trans hFlag) hNew⟩
  | foreign hHandler =>
      have hNew :
          (updateFromOld info simple a).mHandler =
            .simple UNKNOWN := by
        unfold updateFromOld
        by_cases hFlag : a.hasSiginfo = true
        · rw [if_pos hFlag, if_pos (by simp [hHandler])]
        · rw [if_neg hFlag, hHandler]
      exact
        ⟨hNew, .foreign hHandler hNew, fun hKnown =>
          absurd hNew hKnown⟩

/- Leftovers are taken for the handler of others. -/
theorem InForce.read_back_leftover
    {a : SigAction} {simple info : CallbackAddress}
    {d : Disposition}
    (hForce : InForce a.mRaw simple info d)
    (hLeft : Leftover a.mRaw) :
    (updateFromOld info simple a).mHandler ≠
      d.reported := by
  have hFlag : a.hasSiginfo = true := hLeft.2
  have hNew :
      (updateFromOld info simple a).mHandler =
        .simple UNKNOWN := by
    unfold updateFromOld
    rw [if_pos hFlag]
    apply if_pos
    rcases hLeft.1 with hHandler | hHandler
    · simp [hHandler]
    · simp [hHandler]
  rw [hNew]
  cases hForce with
  | default => decide
  | ignore => decide
  | simple hHandler =>
      exact absurd hLeft.1 (by simp [hHandler])
  | info hHandler =>
      exact absurd hLeft.1 (by simp [hHandler])
  | foreign hHandler =>
      exact absurd hLeft.1 (by simp [hHandler])

theorem storeHandler_callback
    {callback : CallbackAddress}
    (hCallback : IsCallback callback)
    (sig : SignalNr) (w : World) :
    w.storeHandler sig (.simple callback) =
      { w with
        simpleHandlers :=
          Function.update w.simpleHandlers sig callback } := by
  apply if_neg
  intro hSpecial
  rcases hSpecial with hIgnore | hDefault | hUnknown
  · exact hCallback.1 hIgnore
  · exact hCallback.2.1 hDefault
  · exact hCallback.2.2 hUnknown

/- The action of an object, once it is stored. -/
theorem Carries.inForce
    {a : SigAction} {d : Disposition}
    (hCarries : Carries a d)
    (sig : SignalNr) (w : World) :
    InForce a.mRaw
      ((w.storeHandler sig a.mHandler).simpleHandlers sig)
      ((w.storeHandler sig a.mHandler).infoHandlers sig)
      d := by
  cases hCarries with
  | default hRaw => exact .default hRaw
  | ignore hRaw => exact .ignore hRaw
  | simple hRaw hFlag hHandler hCallback =>
      rename_i callback
      have hTable :
          (w.storeHandler sig a.mHandler).simpleHandlers
            sig = callback := by
        rw [hHandler, storeHandler_callback hCallback]
        exact Function.update_self sig _ _
      rw [← hTable] at hCallback ⊢
      exact .simple hRaw hFlag hCallback
  | info hRaw hFlag hHandler =>
      rename_i callback
      have hTable :
          (w.storeHandler sig a.mHandler).infoHandlers
            sig = callback := by
        rw [hHandler]
        exact Function.update_self sig _ _
      rw [← hTable]
      exact .info hRaw hFlag
  | foreign hRaw _ => exact .foreign hRaw

theorem storeHandler_other
    {sig other : SignalNr} (hNe : other ≠ sig)
    (handler : SigHandler) (w : World) :
    (w.storeHandler sig handler).simpleHandlers other =
        w.simpleHandlers other ∧
      (w.storeHandler sig handler).infoHandlers other =
        w.infoHandlers other := by
  unfold World.storeHandler
  cases handler with
  | simple callback =>
      by_cases hSpecial :
          callback = IGNORE ∨ callback = DEFAULT ∨
            callback = UNKNOWN
      · simp only [if_pos hSpecial]
        exact
          ⟨Function.update_of_ne hNe _ _,
            Function.update_of_ne hNe _ _⟩
      · simp only [if_neg hSpecial]
        exact ⟨Function.update_of_ne hNe _ _, trivial⟩
  | info callback =>
      exact ⟨rfl, Function.update_of_ne hNe _ _⟩

------------------------------------------------------------
-- What Each Operation Does
------------------------------------------------------------

theorem storeHandler_object
    (sig : SignalNr) (handler : SigHandler) (w : World) :
    (w.storeHandler sig handler).object = w.object ∧
      (w.storeHandler sig handler).kernel = w.kernel := by
  unfold World.storeHandler
  cases handler with
  | simple callback =>
      by_cases hSpecial :
          callback = IGNORE ∨ callback = DEFAULT ∨
            callback = UNKNOWN
      · simp only [if_pos hSpecial]
        exact ⟨trivial, trivial⟩
      · simp only [if_neg hSpecial]
        exact ⟨trivial, trivial⟩
  | info callback => exact ⟨rfl, rfl⟩

/- The tables only depend on the tables. -/
theorem storeHandler_tables
    (w w' : World)
    (hSimple : w'.simpleHandlers = w.simpleHandlers)
    (hInfo : w'.infoHandlers = w.infoHandlers)
    (sig : SignalNr) (handler : SigHandler) :
    (w'.storeHandler sig handler).simpleHandlers =
        (w.storeHandler sig handler).simpleHandlers ∧
      (w'.storeHandler sig handler).infoHandlers =
        (w.storeHandler sig handler).infoHandlers := by
  unfold World.storeHandler
  cases handler with
  | simple callback =>
      by_cases hSpecial :
          callback = IGNORE ∨ callback = DEFAULT ∨
            callback = UNKNOWN
      · simp only [if_pos hSpecial]
        rw [hSimple, hInfo]
        exact ⟨rfl, rfl⟩
      · simp only [if_neg hSpecial]
        rw [hSimple, hInfo]
        exact ⟨rfl, rfl⟩
  | info callback =>
      rw [hSimple, hInfo]
      exact ⟨rfl, rfl⟩

/- The object that the old action is reported in. -/
def reportedObject
    (sig : SignalNr) (w : World) (o : ObjectId) : SigAction :=
  updateFromOld (w.infoHandlers sig) (w.simpleHandlers sig)
    { w.object o with mRaw := w.kernel sig }

/-
  A set action is stored with its callback; only the object
  for the old action changes.
-/
theorem run_setAction
    (sig : SignalNr) (action : ObjectId)
    (old : Option ObjectId) (w : World) :
    ∃ w' : World,
      (setAction sig action old (.ok ())).run w =
        (.returned (), w') ∧
      (∀ o, w'.object o =
        if o ∈ old then reportedObject sig w o
        else w.object o) ∧
      w'.kernel =
        Function.update w.kernel sig
          (w.object action).mRaw ∧
      w'.simpleHandlers =
        (w.storeHandler sig
          (w.object action).mHandler).simpleHandlers ∧
      w'.infoHandlers =
        (w.storeHandler sig
          (w.object action).mHandler).infoHandlers := by
  let w₂ :=
    (w.setKernel sig (w.object action).mRaw).onOutput old
      fun a => { a with mRaw := w.kernel sig }
  have hHandler :
      (w₂.object action).mHandler =
        (w.object action).mHandler := by
    have hObject :
        w₂.object action =
          if action ∈ old then
            { w.object action with mRaw := w.kernel sig }
          else w.object action := rfl
    rw [hObject]
    split <;> rfl
  have hStored :=
    storeHandler_object sig (w₂.object action).mHandler w₂
  have hTables :=
    storeHandler_tables w w₂ rfl rfl sig
      (w₂.object action).mHandler
  refine ⟨_, rfl, ?_, hStored.2, ?_, ?_⟩
  · intro o
    have hObject := congrFun hStored.1 o
    by_cases hOld : o ∈ old
    · rw [if_pos hOld]
      refine (if_pos hOld).trans ?_
      apply congrArg
      exact hObject.trans (if_pos hOld)
    · rw [if_neg hOld]
      refine (if_neg hOld).trans ?_
      exact hObject.trans (if_neg hOld)
  · rw [← hHandler]
    exact hTables.1
  · rw [← hHandler]
    exact hTables.2

theorem run_getAction
    (sig : SignalNr) (action : ObjectId) (w : World) :
    ∃ w' : World,
      (getAction sig action (.ok ())).run w =
        (.returned (), w') ∧
      (∀ o, w'.object o =
        if o ∈ some action then reportedObject sig w o
        else w.object o) ∧
      w'.kernel = w.kernel ∧
      w'.simpleHandlers = w.simpleHandlers ∧
      w'.infoHandlers = w.infoHandlers := by
  refine ⟨_, rfl, ?_, rfl, rfl, rfl⟩
  intro o
  by_cases hOut : o ∈ some action
  · rw [if_pos hOut]
    refine (if_pos hOut).trans ?_
    apply congrArg
    exact if_pos hOut
  · rw [if_neg hOut]
    exact (if_neg hOut).trans (if_neg hOut)

------------------------------------------------------------
-- Keeping the Link
------------------------------------------------------------

/- One object is given a disposition. -/
theorem linked_object
    {s s' : Session} (hLinked : Linked s)
    {o : ObjectId} {a : SigAction} {d : Disposition}
    (hWorld : s'.world = s.world.setObject o a)
    (hInstalled : s'.intent.installed = s.intent.installed)
    (hChosen :
      s'.intent.chosen =
        Function.update s.intent.chosen o d)
    (hCarries : Carries a d)
    (hMatched : Known a → Matched a) :
    Linked s' where
  objects := by
    intro k
    rw [hWorld, hChosen]
    by_cases hEq : k = o
    · subst hEq
      simpa [World.setObject] using hCarries
    · simpa [World.setObject, hEq] using hLinked.objects k
  signals := by
    rw [hWorld, hInstalled]
    exact hLinked.signals
  matched := by
    intro k
    rw [hWorld]
    by_cases hEq : k = o
    · subst hEq
      simpa [World.setObject] using hMatched
    · simpa [World.setObject, hEq] using hLinked.matched k

theorem carries_setHandlerSimple
    {a : SigAction} {handler : CallbackAddress}
    (hKnown : handler ≠ UNKNOWN) :
    Carries
        ((setHandlerSimple handler).run a).2
        (.ofSimple handler) ∧
      Matched ((setHandlerSimple handler).run a).2 := by
  have hRun :
      ((setHandlerSimple handler).run a).2 =
        { mRaw :=
            { a.mRaw with
              saFlags := a.mRaw.saFlags &&& ~~~saSiginfo
              saHandler :=
                if handler = IGNORE then .ign
                else if handler = DEFAULT then .dfl
                else .simpleEntry }
          mHandler := .simple handler } := by
    unfold setHandlerSimple
    rw [if_neg hKnown]
    rfl
  have hFlag :
      ((setHandlerSimple handler).run a).2.hasSiginfo =
        false := by
    rw [hRun]
    exact hasFlag_and_not _ _
  refine ⟨?_, matched_simple hFlag (by rw [hRun])⟩
  unfold Disposition.ofSimple
  by_cases hIgnore : handler = IGNORE
  · rw [if_pos hIgnore]
    apply Carries.ignore
    rw [hRun]
    exact if_pos hIgnore
  · rw [if_neg hIgnore]
    by_cases hDefault : handler = DEFAULT
    · rw [if_pos hDefault]
      apply Carries.default
      rw [hRun]
      exact (if_neg hIgnore).trans (if_pos hDefault)
    · rw [if_neg hDefault]
      apply Carries.simple ?_ hFlag (by rw [hRun])
        ⟨hIgnore, hDefault, hKnown⟩
      rw [hRun]
      exact (if_neg hIgnore).trans (if_neg hDefault)

theorem carries_setHandlerInfo
    (a : SigAction) (handler : CallbackAddress) :
    Carries ((setHandlerInfo handler).run a).2
        (.info handler) ∧
      Matched ((setHandlerInfo handler).run a).2 := by
  have hFlag :
      ((setHandlerInfo handler).run a).2.hasSiginfo = true :=
    hasFlag_or _ _ (by decide)
  exact ⟨.info rfl hFlag rfl, matched_info hFlag rfl⟩

/- Flags never change the kind of the handler. -/
theorem hasSiginfo_setFlags
    (flags : BitVec 32) (a : SigAction) :
    (setFlags flags a).hasSiginfo = a.hasSiginfo := by
  have hRaw :
      (setFlags flags a).mRaw.saFlags =
        if a.hasSiginfo then flags ||| saSiginfo
        else flags &&& ~~~saSiginfo := rfl
  by_cases hSet : a.hasSiginfo = true
  · rw [hSet, hasSiginfo, hRaw, if_pos hSet]
    exact hasFlag_or _ _ (by decide)
  · rw [Bool.of_not_eq_true hSet, hasSiginfo, hRaw,
      if_neg hSet]
    exact hasFlag_and_not _ _

theorem carries_setFlags
    {a : SigAction} {d : Disposition}
    (hCarries : Carries a d) (flags : BitVec 32) :
    Carries (setFlags flags a) d := by
  have hSame := hasSiginfo_setFlags flags a
  cases hCarries with
  | default hRaw => exact .default hRaw
  | ignore hRaw => exact .ignore hRaw
  | simple hRaw hFlag hHandler hCallback =>
      exact
        .simple hRaw (hSame.trans hFlag) hHandler hCallback
  | info hRaw hFlag hHandler =>
      exact .info hRaw (hSame.trans hFlag) hHandler
  | foreign hRaw hHandler => exact .foreign hRaw hHandler

theorem matched_setFlags
    {a : SigAction} (flags : BitVec 32)
    (hMatched : Known a → Matched a) :
    Known (setFlags flags a) → Matched (setFlags flags a) := by
  intro hKnown
  have hBefore : Matched a := hMatched hKnown
  unfold Matched at hBefore ⊢
  rw [hasSiginfo_setFlags]
  exact hBefore

/- Some objects and some signals change at once. -/
theorem linked_of
    {s s' : Session} (hLinked : Linked s)
    (hObjects :
      ∀ o,
        (s'.world.object o = s.world.object o ∧
          s'.intent.chosen o = s.intent.chosen o) ∨
        (Carries (s'.world.object o) (s'.intent.chosen o) ∧
          (Known (s'.world.object o) →
            Matched (s'.world.object o))))
    (hSignals :
      ∀ sig,
        InForce (s'.world.kernel sig)
          (s'.world.simpleHandlers sig)
          (s'.world.infoHandlers sig)
          (s'.intent.installed sig)) :
    Linked s' where
  objects := by
    intro o
    rcases hObjects o with ⟨hObject, hChosen⟩ | hNew
    · rw [hObject, hChosen]
      exact hLinked.objects o
    · exact hNew.1
  signals := hSignals
  matched := by
    intro o
    rcases hObjects o with ⟨hObject, _⟩ | hNew
    · rw [hObject]
      exact hLinked.matched o
    · exact hNew.2

/- The object that a disposition is read back into. -/
theorem reportedObject_spec
    {s : Session} (hLinked : Linked s)
    (sig : SignalNr) (o : ObjectId)
    (hClean : ¬ Leftover (s.world.kernel sig)) :
    (reportedObject sig s.world o).mHandler =
        (s.intent.installed sig).reported ∧
      Carries (reportedObject sig s.world o)
        (s.intent.installed sig) ∧
      (Known (reportedObject sig s.world o) →
        Matched (reportedObject sig s.world o)) :=
  InForce.read_back
    (a := { s.world.object o with
      mRaw := s.world.kernel sig })
    (hLinked.signals sig) hClean

theorem linked_setHandlerSimple
    {s : Session} (hLinked : Linked s)
    (o : ObjectId) (handler : CallbackAddress) :
    Linked (step s (.setHandlerSimple o handler)) := by
  by_cases hUnknown : handler = UNKNOWN
  · refine
      linked_object hLinked (o := o)
        (a := s.world.object o) (d := s.intent.chosen o)
        ?_ ?_ ?_ (hLinked.objects o) (hLinked.matched o)
    · have hRun :
          ((setHandlerSimple handler).run
            (s.world.object o)).2 = s.world.object o := by
        unfold setHandlerSimple
        rw [if_pos hUnknown]
        rfl
      exact
        congrArg (fun a => s.world.setObject o a) hRun
    · exact
        congrArg Intent.installed
          (if_pos hUnknown : (if handler = UNKNOWN then _
            else _) = s.intent)
    · rw [Function.update_eq_self]
      exact
        congrArg Intent.chosen
          (if_pos hUnknown : (if handler = UNKNOWN then _
            else _) = s.intent)
  · have hNew :=
      carries_setHandlerSimple (a := s.world.object o)
        hUnknown
    have hIntent :
        (step s (.setHandlerSimple o handler)).intent =
          { s.intent with
            chosen :=
              Function.update s.intent.chosen o
                (.ofSimple handler) } :=
      if_neg hUnknown
    refine
      linked_object hLinked rfl ?_ ?_ hNew.1
        (fun _ => hNew.2)
    · rw [hIntent]
    · rw [hIntent]

theorem linked_setHandlerInfo
    {s : Session} (hLinked : Linked s)
    (o : ObjectId) (handler : CallbackAddress) :
    Linked (step s (.setHandlerInfo o handler)) := by
  have hNew :=
    carries_setHandlerInfo (s.world.object o) handler
  exact
    linked_object hLinked rfl rfl rfl hNew.1
      (fun _ => hNew.2)

theorem linked_setFlags
    {s : Session} (hLinked : Linked s)
    (o : ObjectId) (flags : BitVec 32) :
    Linked (step s (.setFlags o flags)) :=
  linked_object hLinked rfl rfl
    (Function.update_eq_self o s.intent.chosen).symm
    (carries_setFlags (hLinked.objects o) flags)
    (matched_setFlags flags (hLinked.matched o))

theorem matched_clear_iff (a : SigAction) :
    Matched (clear a) ↔ a.getInfoHandler.isSome = false := by
  have hFlag : (clear a).hasSiginfo = false :=
    hasFlag_zero saSiginfo
  have hSame :
      (clear a).getInfoHandler = a.getInfoHandler := rfl
  unfold Matched
  rw [hFlag, hSame]
  simp

theorem linked_clear
    {s : Session} (hLinked : Linked s) {o : ObjectId}
    (hFine :
      (s.world.object o).getInfoHandler.isSome = false) :
    Linked (step s (.clear o)) :=
  linked_object hLinked rfl rfl rfl (.default rfl)
    fun _ => (matched_clear_iff _).mpr hFine

/-
  A disposition that is set is in force for its signal, and
  the one before is reported.
-/
theorem linked_setAction
    {s : Session} (hLinked : Linked s)
    (sig : SignalNr) (action : ObjectId)
    (old : Option ObjectId)
    (hClean :
      ∀ o, o ∈ old → ¬ Leftover (s.world.kernel sig)) :
    Linked (step s (.setAction sig action old (.ok ()))) ∧
      ∀ o, o ∈ old →
        ((step s (.setAction sig action old
          (.ok ()))).world.object o).mHandler =
          (s.intent.installed sig).reported := by
  rcases run_setAction sig action old s.world with
    ⟨w', hRun, hObject, hKernel, hSimple, hInfo⟩
  have hWorld :
      (step s (.setAction sig action old (.ok ()))).world =
        w' :=
    congrArg Prod.snd hRun
  constructor
  · apply linked_of hLinked
    · intro o
      have hChosen :
          (step s (.setAction sig action old
            (.ok ()))).intent.chosen o =
            if o ∈ old then s.intent.installed sig
            else s.intent.chosen o := rfl
      rw [hWorld, hObject, hChosen]
      by_cases hOld : o ∈ old
      · right
        rw [if_pos hOld, if_pos hOld]
        exact
          (reportedObject_spec hLinked sig o
            (hClean o hOld)).2
      · left
        rw [if_neg hOld, if_neg hOld]
        exact ⟨rfl, rfl⟩
    · intro other
      have hInstalled :
          (step s (.setAction sig action old
            (.ok ()))).intent.installed =
            Function.update s.intent.installed sig
              (s.intent.chosen action) := rfl
      rw [hWorld, hKernel, hSimple, hInfo, hInstalled]
      by_cases hEq : other = sig
      · subst hEq
        rw [Function.update_self, Function.update_self]
        exact (hLinked.objects action).inForce other s.world
      · rw [Function.update_of_ne hEq,
          Function.update_of_ne hEq]
        have hTables :=
          storeHandler_other hEq
            (s.world.object action).mHandler s.world
        rw [hTables.1, hTables.2]
        exact hLinked.signals other
  · intro o hOld
    rw [hWorld, hObject, if_pos hOld]
    exact
      (reportedObject_spec hLinked sig o (hClean o hOld)).1

theorem linked_getAction
    {s : Session} (hLinked : Linked s)
    (sig : SignalNr) (action : ObjectId)
    (hClean : ¬ Leftover (s.world.kernel sig)) :
    Linked (step s (.getAction sig action (.ok ()))) ∧
      ((step s (.getAction sig action
        (.ok ()))).world.object action).mHandler =
        (s.intent.installed sig).reported := by
  rcases run_getAction sig action s.world with
    ⟨w', hRun, hObject, hKernel, hSimple, hInfo⟩
  have hWorld :
      (step s (.getAction sig action (.ok ()))).world = w' :=
    congrArg Prod.snd hRun
  have hReported := reportedObject_spec hLinked sig action
    hClean
  constructor
  · apply linked_of hLinked
    · intro o
      have hChosen :
          (step s (.getAction sig action
            (.ok ()))).intent.chosen =
            Function.update s.intent.chosen action
              (s.intent.installed sig) := rfl
      rw [hWorld, hObject, hChosen]
      by_cases hEq : o = action
      · subst hEq
        right
        rw [if_pos (Option.mem_some_self o),
          Function.update_self]
        exact hReported.2
      · left
        rw [if_neg
          (by simpa using fun hSame => hEq hSame.symm),
          Function.update_of_ne hEq]
        exact ⟨rfl, rfl⟩
    · intro other
      rw [hWorld, hKernel, hSimple, hInfo]
      exact hLinked.signals other
  · rw [hWorld, hObject,
      if_pos (Option.mem_some_self action)]
    exact hReported.1

theorem InForce.isHandler_iff
    {raw : RawAction} {simple info : CallbackAddress}
    {d : Disposition}
    (hForce : InForce raw simple info d) :
    d.isHandler = true ↔
      raw.saHandler ≠ .dfl ∧ raw.saHandler ≠ .ign := by
  cases hForce with
  | default hRaw => simp [Disposition.isHandler, hRaw]
  | ignore hRaw => simp [Disposition.isHandler, hRaw]
  | simple hRaw => simp [Disposition.isHandler, hRaw]
  | info hRaw => simp [Disposition.isHandler, hRaw]
  | foreign hRaw => simp [Disposition.isHandler, hRaw]

/- A delivery resets a one-shot handler. -/
theorem linked_deliver
    {s : Session} (hLinked : Linked s) (sig : SignalNr) :
    Linked (step s (.deliver sig)) := by
  have hIff := (hLinked.signals sig).isHandler_iff
  by_cases hReset :
      hasFlag (s.world.kernel sig).saFlags saResethand =
          true ∧
        (s.intent.installed sig).isHandler = true
  · have hWorld :
        (step s (.deliver sig)).world =
          s.world.setKernel sig
            { s.world.kernel sig with saHandler := .dfl } :=
      if_pos ⟨hReset.1, hIff.mp hReset.2⟩
    have hIntent :
        (step s (.deliver sig)).intent =
          { s.intent with
            installed :=
              Function.update s.intent.installed sig
                .default } :=
      if_pos hReset
    apply linked_of hLinked
    · intro o
      left
      rw [hWorld, hIntent]
      exact ⟨rfl, rfl⟩
    · intro other
      rw [hWorld, hIntent]
      by_cases hEq : other = sig
      · subst hEq
        simp only [World.setKernel, Function.update_self]
        exact .default rfl
      · simpa [World.setKernel, hEq] using
          hLinked.signals other
  · have hWorld : (step s (.deliver sig)).world = s.world := by
      apply if_neg
      intro hBoth
      exact hReset ⟨hBoth.1, hIff.mpr hBoth.2⟩
    have hIntent :
        (step s (.deliver sig)).intent = s.intent :=
      if_neg hReset
    apply linked_of hLinked
    · intro o
      left
      rw [hWorld, hIntent]
      exact ⟨rfl, rfl⟩
    · intro other
      rw [hWorld, hIntent]
      exact hLinked.signals other

theorem inForce_foreign
    {raw : RawAction} (hForeign : IsForeign raw)
    (simple info : CallbackAddress) :
    InForce raw simple info (.ofForeign raw.saHandler) := by
  cases hRaw : raw.saHandler with
  | dfl => exact .default hRaw
  | ign => exact .ignore hRaw
  | simpleEntry => exact absurd hRaw hForeign.1
  | infoEntry => exact absurd hRaw hForeign.2
  | foreign function => exact .foreign hRaw

theorem linked_foreign
    {s : Session} (hLinked : Linked s)
    (sig : SignalNr) {raw : RawAction}
    (hForeign : IsForeign raw) :
    Linked (step s (.foreign sig raw)) := by
  apply linked_of hLinked
  · intro o
    left
    exact ⟨rfl, rfl⟩
  · intro other
    have hKernel :
        (step s (.foreign sig raw)).world.kernel =
          Function.update s.world.kernel sig raw := rfl
    have hInstalled :
        (step s (.foreign sig raw)).intent.installed =
          Function.update s.intent.installed sig
            (.ofForeign raw.saHandler) := rfl
    rw [hKernel, hInstalled]
    by_cases hEq : other = sig
    · subst hEq
      rw [Function.update_self, Function.update_self]
      exact inForce_foreign hForeign _ _
    · rw [Function.update_of_ne hEq,
        Function.update_of_ne hEq]
      exact hLinked.signals other

theorem linked_assign
    {s : Session} (hLinked : Linked s)
    (o other : ObjectId) :
    Linked (step s (.assign o other)) :=
  linked_object hLinked rfl rfl rfl
    (hLinked.objects other) (hLinked.matched other)

------------------------------------------------------------
-- Steps and Runs
------------------------------------------------------------

theorem linked_start
    {kernel : SignalNr → RawAction}
    (hForeign : ∀ sig, IsForeign (kernel sig)) :
    Linked (start kernel) where
  objects := fun _ => .default rfl
  signals := fun sig => inForce_foreign (hForeign sig) 0 0
  matched := fun _ _ =>
    matched_simple (hasFlag_zero saSiginfo) rfl

/- A failed system call leaves everything alone. -/
theorem step_setAction_error
    (s : Session) (sig : SignalNr) (action : ObjectId)
    (old : Option ObjectId) (e : Errno) :
    step s (.setAction sig action old (.error e)) = s :=
  rfl

theorem step_getAction_error
    (s : Session) (sig : SignalNr) (action : ObjectId)
    (e : Errno) :
    step s (.getAction sig action (.error e)) = s :=
  rfl

/- An operation that is no slip keeps the link. -/
theorem linked_step
    {s : Session} (hLinked : Linked s)
    {op : Op} (hLegal : legal s op) (hFine : ¬ Slip s op) :
    Linked (step s op) := by
  cases op with
  | setHandlerSimple o handler =>
      exact linked_setHandlerSimple hLinked o handler
  | setHandlerInfo o handler =>
      exact linked_setHandlerInfo hLinked o handler
  | setFlags o flags => exact linked_setFlags hLinked o flags
  | clear o =>
      apply linked_clear hLinked
      by_contra hInfo
      exact
        hFine
          (Or.inl ⟨o, rfl, Bool.of_not_eq_false hInfo⟩)
  | assign o other => exact linked_assign hLinked o other
  | setAction sig action old answer =>
      cases answer with
      | error e =>
          rw [step_setAction_error]
          exact hLinked
      | ok =>
          apply (linked_setAction hLinked sig action old ?_).1
          intro o hOld hLeft
          have hOut : old = some o := hOld
          subst hOut
          exact
            hFine
              (Or.inr ⟨sig, o, Or.inl ⟨action, rfl⟩, hLeft⟩)
  | getAction sig action answer =>
      cases answer with
      | error e =>
          rw [step_getAction_error]
          exact hLinked
      | ok =>
          apply (linked_getAction hLinked sig action ?_).1
          intro hLeft
          exact
            hFine (Or.inr ⟨sig, action, Or.inr rfl, hLeft⟩)
  | deliver sig => exact linked_deliver hLinked sig
  | foreign sig raw => exact linked_foreign hLinked sig hLegal

/- What is read back is what was in force. -/
theorem reports_of_reads
    {s : Session} (hLinked : Linked s)
    {op : Op} {sig : SignalNr} {o : ObjectId}
    (hReads : op.Reads sig o)
    (hClean : ¬ Leftover (s.world.kernel sig)) :
    ((step s op).world.object o).mHandler =
      (s.intent.installed sig).reported := by
  rcases hReads with ⟨action, hOp⟩ | hOp
  · rw [hOp]
    exact
      (linked_setAction hLinked sig action (some o)
        (fun _ _ => hClean)).2 o (Option.mem_some_self o)
  · rw [hOp]
    exact (linked_getAction hLinked sig o hClean).2

theorem conforming_step
    {s : Session} (hLinked : Linked s)
    {op : Op} (hLegal : legal s op) (hFine : ¬ Slip s op) :
    Conforming Known s op (step s op) where
  flags := (linked_step hLinked hLegal hFine).matched
  invokes := by
    intro sig _
    exact (hLinked.signals sig).invoked_eq
  reports := by
    intro sig o hReads
    apply reports_of_reads hLinked hReads
    intro hLeft
    exact hFine (Or.inr ⟨sig, o, hReads, hLeft⟩)

/- Leftovers are reported as the handler of others. -/
theorem not_reports_of_leftover
    {s : Session} (hLinked : Linked s)
    {op : Op} {sig : SignalNr} {o : ObjectId}
    (hReads : op.Reads sig o)
    (hLeft : Leftover (s.world.kernel sig)) :
    ((step s op).world.object o).mHandler ≠
      (s.intent.installed sig).reported := by
  have hWrong :
      (reportedObject sig s.world o).mHandler ≠
        (s.intent.installed sig).reported :=
    InForce.read_back_leftover
      (a := { s.world.object o with
        mRaw := s.world.kernel sig })
      (hLinked.signals sig) hLeft
  rcases hReads with ⟨action, hOp⟩ | hOp
  · rcases run_setAction sig action (some o) s.world with
      ⟨w', hRun, hObject, -⟩
    have hWorld : (step s op).world = w' := by
      rw [hOp]
      exact congrArg Prod.snd hRun
    rw [hWorld, hObject, if_pos (Option.mem_some_self o)]
    exact hWrong
  · rcases run_getAction sig o s.world with
      ⟨w', hRun, hObject, -⟩
    have hWorld : (step s op).world = w' := by
      rw [hOp]
      exact congrArg Prod.snd hRun
    rw [hWorld, hObject, if_pos (Option.mem_some_self o)]
    exact hWrong

theorem not_conforming_of_slip
    {s : Session} (hLinked : Linked s)
    {op : Op} (hSlip : Slip s op) :
    ¬ Conforming Known s op (step s op) := by
  intro hConforming
  rcases hSlip with ⟨o, hOp, hInfo⟩ |
    ⟨sig, o, hReads, hLeft⟩
  · subst hOp
    have hObject :
        (step s (.clear o)).world.object o =
          clear (s.world.object o) :=
      Function.update_self o _ _
    have hFlags := hConforming.flags o
    rw [hObject, matched_clear_iff, hInfo] at hFlags
    have hKnown : Known (clear (s.world.object o)) := by
      intro hUnknown
      have hHandler :
          (s.world.object o).mHandler = .simple UNKNOWN :=
        hUnknown
      unfold getInfoHandler at hInfo
      rw [hHandler] at hInfo
      cases hInfo
    cases hFlags hKnown
  · exact
      not_reports_of_leftover hLinked hReads hLeft
        (hConforming.reports sig o hReads)

/-
  Along a run the flag of an info handler is set exactly in
  the objects that hold one, apart from objects that stand
  for the handler of others; every delivery invokes what was
  installed last, and what is read back is in force. This is
  so exactly as long as no object that holds an info handler
  is cleared and no disposition is read back that has the
  flag of an info handler and no handler.
-/
theorem conforming_along_iff
    {kernel : SignalNr → RawAction}
    (hForeign : ∀ sig, IsForeign (kernel sig))
    (ops : List Op)
    (hLegal : machine.Legal (start kernel) ops) :
    machine.Along (Conforming Known) (start kernel) ops ↔
      machine.Along (fun s op _ => ¬ Slip s op)
        (start kernel) ops := by
  apply Machine.along_iff_of_invariant Linked ?_ ?_ ops
    (start kernel) (linked_start hForeign) hLegal
  · intro s op hLinked hOp hFine
    exact
      ⟨linked_step hLinked hOp hFine,
        conforming_step hLinked hOp hFine⟩
  · intro s op hLinked _ hSlip
    exact
      not_conforming_of_slip hLinked
        (Classical.not_not.mp hSlip)

/- A one-shot callback is installed and runs twice. -/
theorem conforming_along_one_shot :
    machine.Along (Conforming Known)
      (start fun _ => ⟨.dfl, 0#32, 0⟩)
      [.setHandlerSimple 0 7, .setFlags 0 saResethand,
        .setAction 10 0 (some 1) (.ok ()), .deliver 10,
        .deliver 10] := by
  have hForeign :
      ∀ _ : SignalNr, IsForeign ⟨.dfl, 0#32, 0⟩ :=
    fun _ => ⟨RawHandler.noConfusion, RawHandler.noConfusion⟩
  refine
    (conforming_along_iff hForeign
      [.setHandlerSimple 0 7, .setFlags 0 saResethand,
        .setAction 10 0 (some 1) (.ok ()), .deliver 10,
        .deliver 10] ?_).mpr ?_
  · exact ⟨trivial, trivial, trivial, trivial, trivial, trivial⟩
  · refine ⟨?_, ?_, ?_, ?_, ?_, trivial⟩
    · intro hSlip
      rcases hSlip with ⟨o, hOp, -⟩ |
        ⟨sig, o, ⟨action, hOp⟩ | hOp, -⟩ <;> cases hOp
    · intro hSlip
      rcases hSlip with ⟨o, hOp, -⟩ |
        ⟨sig, o, ⟨action, hOp⟩ | hOp, -⟩ <;> cases hOp
    · intro hSlip
      rcases hSlip with ⟨o, hOp, -⟩ |
        ⟨sig, o, ⟨action, hOp⟩ | hOp, hLeft⟩
      · cases hOp
      · cases hOp
        exact absurd hLeft.2 (by decide)
      · cases hOp
    · intro hSlip
      rcases hSlip with ⟨o, hOp, -⟩ |
        ⟨sig, o, ⟨action, hOp⟩ | hOp, -⟩ <;> cases hOp
    · intro hSlip
      rcases hSlip with ⟨o, hOp, -⟩ |
        ⟨sig, o, ⟨action, hOp⟩ | hOp, -⟩ <;> cases hOp

/- Another library installed an extended handler. -/
def extended (_ : SignalNr) : RawAction :=
  ⟨.foreign 7, saSiginfo, 0⟩

theorem isForeign_extended :
    IsForeign ⟨.foreign 7, saSiginfo, 0⟩ :=
  ⟨RawHandler.noConfusion, RawHandler.noConfusion⟩

/-
  Such a handler is read back as `UNKNOWN`, which counts as
  a simple handler, while the flag stays set.
-/
theorem extended_handler_of_others :
    (∀ sig, IsForeign (extended sig)) ∧
      machine.Legal (start extended)
        [.getAction 10 0 (.ok ())] ∧
      ((machine.run (start extended)
        [.getAction 10 0
          (.ok ())]).world.object 0).hasSiginfo = true ∧
      ((machine.run (start extended)
        [.getAction 10 0
          (.ok ())]).world.object 0).getInfoHandler =
        none ∧
      ¬ machine.Along (Conforming fun _ => True)
        (start extended) [.getAction 10 0 (.ok ())] := by
  refine
    ⟨fun _ => isForeign_extended, ⟨trivial, trivial⟩,
      by decide, by decide, ?_⟩
  intro hAlong
  have hFlags := hAlong.1.flags 0 trivial
  exact absurd hFlags (by unfold Matched; decide)

end SigAction

end Cosmos
