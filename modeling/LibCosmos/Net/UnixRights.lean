import LibCosmos.Foundation.Machine
import LibCosmos.Foundation.Places
import LibCosmos.Net.UnixAux

/-
  Who owns the descriptors of `UnixRightsMessage` objects
  (`include/net/unix/aux.hxx`, `src/net/unix/aux.cxx`).

  The kernel installs the descriptors of a message when the
  message is received. Until it is parsed for the first time
  they belong to the control message.

  Main declarations:
    * `Rights.Item`, `Rights.World`, `Rights.Op`
    * `Rights.Op.Faulty`
    * `Rights.rights_conserved_along_iff`
-/

namespace Cosmos

open Custody

namespace Rights

------------------------------------------------------------
-- Objects and Messages
------------------------------------------------------------

/-
  A `UnixRightsMessage`, or a control message that arrived
  and that may not have been parsed yet.
-/
inductive Item where
| rights (obj : UnixRightsMessage)
| arrived (msg : ReceiveMessageHeader.ControlMessage)
    (unread : Bool)

/- What the kernel installed for a message. -/
def installed (msg : ReceiveMessageHeader.ControlMessage) :
    List FileNum :=
  (UnixRightsMessage.holding
    (UnixRightsMessage.received msg)).owned

/- The descriptors that an item is responsible for. -/
def Item.owned : Item → List FileNum
| .rights obj => obj.owned
| .arrived msg unread =>
    if unread = true ∧
        AncillaryMessage.Matches msg .rights then
      installed msg
    else []

/-
  The items of a process, the log of the descriptors that
  came with messages, and whether `std::terminate` was
  called.
-/
structure World (ι : Type) where
  items : ι → Option Item
  log : List (Entry FileNum)
  ended : Bool

def World.held {ι : Type} (w : World ι) :
    ι → List FileNum :=
  Places.held Item.owned w.items

------------------------------------------------------------
-- Operations
------------------------------------------------------------

/-
  Operations on objects, with the answers of `::close`. The
  declared destructor leaves the class with no move
  operations of its own, so that a move is a copy.
-/
inductive Op (ι : Type) where
| construct (i : ι)
| arrive (i : ι) (msg : ReceiveMessageHeader.ControlMessage)
| addFD (i : ι) (fd : FileNum)
| clearFDs (i : ι) (closed : Nat → Sys Unit)
| deserialize (i k : ι) (closed : Nat → Sys Unit)
| takeFDs (i : ι)
| serialize (i : ι)
| copyConstruct (i j : ι)
| moveConstruct (i j : ι)
| copyAssign (i j : ι)
| moveAssign (i j : ι)
| destroy (i : ι) (closed : Nat → Sys Unit)

section Worlds

variable {ι : Type} [DecidableEq ι]

namespace World

/- A method of the object at a place. -/
def act {α : Type}
    (w : World ι) (i : ι)
    (m : Method (Frame UnixRightsMessage) α) : World ι :=
  match w.items i with
  | some (.rights obj) =>
      let s := (m.run ⟨obj, w.log⟩).2
      { w with
        items :=
          Function.update w.items i (some (.rights s.this))
        log := s.log }
  | _ => w

/- The kernel installs what comes with a message. -/
def arrive
    (w : World ι) (i : ι)
    (msg : ReceiveMessageHeader.ControlMessage) :
    World ι :=
  let item := Item.arrived msg true
  { w with
    items := Function.update w.items i (some item)
    log := (item.owned.map .acquired).reverse ++ w.log }

/- A message that was parsed has no descriptors any more. -/
def deserialize
    (w : World ι) (i k : ι) (closed : Nat → Sys Unit) :
    World ι :=
  match w.items i, w.items k with
  | some (.rights obj), some (.arrived msg unread) =>
      let r :=
        (UnixRightsMessage.deserialize msg closed).run
          ⟨obj, w.log⟩
      let left :=
        match r.1 with
        | .returned _ => false
        | _ => unread
      { w with
        items :=
          Function.update
            (Function.update w.items i
              (some (.rights r.2.this)))
            k (some (.arrived msg left))
        log := r.2.log }
  | _, _ => w

/- Both kinds of construction and of assignment. -/
def copy (w : World ι) (i j : ι) : World ι :=
  { w with items := Function.update w.items i (w.items j) }

/- `~UnixRightsMessage` must not throw. -/
def destroy
    (w : World ι) (i : ι) (closed : Nat → Sys Unit) :
    World ι :=
  match w.items i with
  | some (.rights obj) =>
      let r :=
        (UnixRightsMessage.closeUnclaimed closed).run
          ⟨obj, w.log⟩
      { items := Function.update w.items i none
        log := r.2.log
        ended :=
          match r.1 with
          | .returned _ => w.ended
          | _ => true }
  | _ => w

def step (w : World ι) : Op ι → World ι
| .construct i =>
    { w with
      items :=
        Function.update w.items i (some (.rights {})) }
| .arrive i msg => w.arrive i msg
| .addFD i fd => w.act i (UnixRightsMessage.addFD fd)
| .clearFDs i closed =>
    w.act i (UnixRightsMessage.clearFDs closed)
| .deserialize i k closed => w.deserialize i k closed
| .takeFDs i => w.act i UnixRightsMessage.takeFDs
| .serialize _ => w
| .copyConstruct i j => w.copy i j
| .moveConstruct i j => w.copy i j
| .copyAssign i j => w.copy i j
| .moveAssign i j => w.copy i j
| .destroy i closed => w.destroy i closed

/- There is an object at this place. -/
def Has (w : World ι) (i : ι) (obj : UnixRightsMessage) :
    Prop :=
  w.items i = some (.rights obj)

end World

/-
  Operations make sense on live objects, and the kernel
  installs descriptors that are not in use, each once.
-/
def Op.Legal (w : World ι) : Op ι → Prop
| .construct i => w.items i = none
| .arrive i msg =>
    w.items i = none ∧
      (Item.arrived msg true).owned.Nodup ∧
      ∀ fd ∈ (Item.arrived msg true).owned,
        ∀ k, fd ∉ w.held k
| .addFD i _ => ∃ obj, w.Has i obj
| .clearFDs i _ => ∃ obj, w.Has i obj
| .deserialize i k _ =>
    (∃ obj, w.Has i obj) ∧
      ∃ msg unread,
        w.items k = some (.arrived msg unread)
| .takeFDs i => ∃ obj, w.Has i obj
| .serialize i => ∃ obj, w.Has i obj
| .copyConstruct i j =>
    w.items i = none ∧ ∃ obj, w.Has j obj
| .moveConstruct i j =>
    w.items i = none ∧ ∃ obj, w.Has j obj
| .copyAssign i j =>
    (∃ obj, w.Has i obj) ∧ ∃ obj, w.Has j obj
| .moveAssign i j =>
    (∃ obj, w.Has i obj) ∧ ∃ obj, w.Has j obj
| .destroy i _ => ∃ obj, w.Has i obj

def machine : Machine (World ι) (Op ι) where
  legal w op := w.ended = false ∧ op.Legal w
  step := World.step

/- An object that owns something is part of a copy. -/
def CopyFaulty (w : World ι) (i j : ι) : Prop :=
  i ≠ j ∧ (w.held i ≠ [] ∨ w.held j ≠ [])

/-
  The operations that the class does not take care of:
    * a descriptor is added to received ones;
    * a call of `::close` fails, in the destructor one that
      is not the last;
    * a message with descriptors is parsed once more;
    * an object that owns descriptors is copied or moved, or
      is assigned to.
-/
def Op.Faulty (w : World ι) : Op ι → Prop
| .addFD i fd =>
    fd ≠ FileNum.invalid ∧
      ∃ obj, w.Has i obj ∧ obj.mUnclaimedFds = true
| .clearFDs i closed =>
    ∃ obj, w.Has i obj ∧
      UnixRightsMessage.CloseFails obj closed
| .deserialize i k closed =>
    ∃ obj msg unread,
      w.Has i obj ∧
        w.items k = some (.arrived msg unread) ∧
        AncillaryMessage.Matches msg .rights ∧
        (UnixRightsMessage.CloseFails obj closed ∨
          unread = false ∧ installed msg ≠ [])
| .copyConstruct i j => CopyFaulty w i j
| .moveConstruct i j => CopyFaulty w i j
| .copyAssign i j => CopyFaulty w i j
| .moveAssign i j => CopyFaulty w i j
| .destroy i closed =>
    ∃ obj, w.Has i obj ∧ obj.mUnclaimedFds = true ∧
      ¬ obj.mFds.zipIdx.Pairwise
        (UnixRightsMessage.EarlyWorks closed)
| _ => False

/-
  Every descriptor that came with a message was handed out
  or closed once, or there is one that is responsible for
  it. Others are not closed.
-/
structure Conserved (w : World ι) : Prop where
  sound : Sound w.held w.log
  accounted :
    ∀ fd,
      ((∃ i, fd ∈ w.held i) ∧
        w.log.count (.acquired fd) =
          w.log.count (.settled .closed fd) +
            w.log.count (.settled .handedOut fd) + 1) ∨
      ((∀ i, fd ∉ w.held i) ∧
        w.log.count (.acquired fd) =
          w.log.count (.settled .closed fd) +
            w.log.count (.settled .handedOut fd))

omit [DecidableEq ι] in
theorem Conserved.of_sound
    {w : World ι} (hSound : Sound w.held w.log) :
    Conserved w where
  sound := hSound
  accounted := hSound.count_acquired

------------------------------------------------------------
-- What the Methods Trade
------------------------------------------------------------

omit [DecidableEq ι] in
theorem held_of_has
    {w : World ι} {i : ι} {obj : UnixRightsMessage}
    (hHas : w.Has i obj) : w.held i = obj.owned := by
  unfold World.held Places.held
  rw [hHas]
  rfl

omit [DecidableEq ι] in
theorem held_of_none
    {w : World ι} {i : ι} (hNone : w.items i = none) :
    w.held i = [] := by
  unfold World.held Places.held
  rw [hNone]
  rfl

/- A method of one object that is a trade. -/
theorem sound_act
    {w : World ι} {i : ι} {obj : UnixRightsMessage}
    {α : Type} {m : Method (Frame UnixRightsMessage) α}
    (hSound : Sound w.held w.log)
    (hHas : w.Has i obj)
    (hTrade :
      Trade (fun _ => False) obj.owned w.log
        (m.run ⟨obj, w.log⟩).2.this.owned
        (m.run ⟨obj, w.log⟩).2.log) :
    Sound (w.act i m).held (w.act i m).log := by
  rw [← held_of_has hHas] at hTrade
  unfold World.act
  rw [hHas]
  apply Places.sound_of_trade hSound hTrade
  intro r hFalse
  exact hFalse.elim

/- An item goes, or comes, that owns nothing. -/
theorem sound_update
    {w : World ι} {i : ι} {item : Option Item}
    (hSound : Sound w.held w.log)
    (hBefore : w.held i = [])
    (hAfter : Places.heldBy Item.owned item = []) :
    Sound
      (Places.held Item.owned
        (Function.update w.items i item)) w.log := by
  refine
    Places.sound_of_trade hSound ?_
      (fun _ (hFalse : False) => hFalse.elim)
  unfold World.held at hBefore
  rw [hBefore, hAfter]
  exact .refl

/- Everything that is owned is settled in one way. -/
theorem trade_settle
    (free : FileNum → Prop) (way : Way)
    (fds : List FileNum) (log : List (Entry FileNum)) :
    Trade free fds log []
      ((fds.map (.settled way)).reverse ++ log) := by
  have hAll := Trade.settleAll free way [] fds log
  rw [List.append_nil] at hAll
  exact hAll

------------------------------------------------------------
-- Operations That Are Not Faulty
------------------------------------------------------------

theorem sound_arrive
    {w : World ι} {i : ι}
    {msg : ReceiveMessageHeader.ControlMessage}
    (hSound : Sound w.held w.log)
    (hLegal : (Op.arrive i msg).Legal w) :
    Sound (w.arrive i msg).held (w.arrive i msg).log := by
  rcases hLegal with ⟨hNone, hNodup, hNew⟩
  have hEmpty :
      Places.held Item.owned w.items i = [] :=
    held_of_none hNone
  have hTrade :=
    Trade.acquireAll
      (fun fd => ∀ k, fd ∉ w.held k)
      (Item.arrived msg true).owned [] w.log hNew
      (fun _ _ => List.not_mem_nil) hNodup
  rw [List.nil_append, ← hEmpty] at hTrade
  apply Places.sound_of_trade hSound hTrade
  intro fd hFree k _
  exact hFree k

/- To an object that closes nothing anything can be added. -/
theorem sound_addFD
    {w : World ι} {i : ι} {fd : FileNum}
    {obj : UnixRightsMessage}
    (hSound : Sound w.held w.log)
    (hHas : w.Has i obj)
    (hNot : ¬ (Op.addFD i fd).Faulty w) :
    Sound (w.act i (UnixRightsMessage.addFD fd)).held
      (w.act i (UnixRightsMessage.addFD fd)).log := by
  apply sound_act hSound hHas
  have hSame :
      UnixRightsMessage.owned
          { obj with mFds := obj.mFds ++ [fd] } =
        obj.owned := by
    unfold UnixRightsMessage.owned
    cases hFlag : obj.mUnclaimedFds with
    | false => rfl
    | true =>
        have hInvalid : fd = FileNum.invalid := by
          by_contra hValid
          exact hNot ⟨hValid, obj, hHas, hFlag⟩
        simp [hInvalid]
  unfold UnixRightsMessage.addFD
  rw [Frame.run_assign]
  simp only [hSame]
  exact .refl

theorem sound_clearFDs
    {w : World ι} {i : ι} {closed : Nat → Sys Unit}
    {obj : UnixRightsMessage}
    (hSound : Sound w.held w.log)
    (hHas : w.Has i obj)
    (hNot : ¬ UnixRightsMessage.CloseFails obj closed) :
    Sound (w.act i (UnixRightsMessage.clearFDs closed)).held
      (w.act i
        (UnixRightsMessage.clearFDs closed)).log := by
  apply sound_act hSound hHas
  rw [UnixRightsMessage.run_clearFDs hNot]
  exact trade_settle _ .closed obj.owned w.log

theorem sound_takeFDs
    {w : World ι} {i : ι} {obj : UnixRightsMessage}
    (hSound : Sound w.held w.log)
    (hHas : w.Has i obj) :
    Sound (w.act i UnixRightsMessage.takeFDs).held
      (w.act i UnixRightsMessage.takeFDs).log := by
  apply sound_act hSound hHas
  rw [UnixRightsMessage.run_takeFDs]
  cases hFlag : obj.mUnclaimedFds with
  | true => exact trade_settle _ .handedOut obj.owned w.log
  | false => exact .refl

/- The items after a call that leaves both as they were. -/
theorem update_items_self
    {w : World ι} {i k : ι} {obj : UnixRightsMessage}
    {msg : ReceiveMessageHeader.ControlMessage}
    {unread : Bool}
    (hHas : w.Has i obj)
    (hItem : w.items k = some (.arrived msg unread)) :
    Function.update
        (Function.update w.items i (some (.rights obj))) k
        (some (.arrived msg unread)) =
      w.items := by
  have hObj :
      Function.update w.items i (some (.rights obj)) =
        w.items :=
    Function.update_eq_self_iff.mpr hHas.symm
  rw [hObj]
  exact Function.update_eq_self_iff.mpr hItem.symm

/- A message of another type changes nothing. -/
theorem deserialize_mismatch
    {w : World ι} {i k : ι} {obj : UnixRightsMessage}
    {msg : ReceiveMessageHeader.ControlMessage}
    {unread : Bool}
    (hHas : w.Has i obj)
    (hItem : w.items k = some (.arrived msg unread))
    (hOther : ¬ AncillaryMessage.Matches msg .rights)
    (closed : Nat → Sys Unit) :
    w.deserialize i k closed = w := by
  unfold World.deserialize
  rw [hHas, hItem]
  simp only [
    UnixRightsMessage.run_deserialize_mismatch hOther,
    update_items_self hHas hItem]

/- A matching one replaces what the object had. -/
theorem deserialize_eq
    {w : World ι} {i k : ι} {obj : UnixRightsMessage}
    {msg : ReceiveMessageHeader.ControlMessage}
    {unread : Bool} {closed : Nat → Sys Unit}
    (hHas : w.Has i obj)
    (hItem : w.items k = some (.arrived msg unread))
    (hMatches : AncillaryMessage.Matches msg .rights)
    (hCloses :
      ¬ UnixRightsMessage.CloseFails obj closed) :
    w.deserialize i k closed =
      { items :=
          Function.update
            (Function.update w.items i
              (some (.rights
                (UnixRightsMessage.holding
                  (UnixRightsMessage.received msg)))))
            k (some (.arrived msg false))
        log :=
          (obj.owned.map (.settled .closed)).reverse ++ w.log
        ended := w.ended } := by
  have hRun :=
    UnixRightsMessage.run_deserialize (s := ⟨obj, w.log⟩)
      hMatches hCloses
  unfold World.deserialize
  rw [hHas, hItem]
  simp only [hRun]

omit [DecidableEq ι] in
theorem ne_of_has
    {w : World ι} {i k : ι} {obj : UnixRightsMessage}
    {msg : ReceiveMessageHeader.ControlMessage}
    {unread : Bool}
    (hHas : w.Has i obj)
    (hItem : w.items k = some (.arrived msg unread)) :
    i ≠ k := by
  intro hSame
  unfold World.Has at hHas
  rw [hSame, hItem] at hHas
  cases hHas

/- The books after an object closed what it had. -/
theorem sound_cleared
    {w : World ι} {i : ι} {obj : UnixRightsMessage}
    {item : Option Item}
    (hSound : Sound w.held w.log)
    (hHas : w.Has i obj)
    (hAfter : Places.heldBy Item.owned item = []) :
    Sound
      (Places.held Item.owned
        (Function.update w.items i item))
      ((obj.owned.map (.settled .closed)).reverse ++
        w.log) := by
  refine
    Places.sound_of_trade hSound ?_
      (fun _ (hFalse : False) => hFalse.elim)
  have hHeld :
      Places.held Item.owned w.items i = obj.owned :=
    held_of_has hHas
  rw [hHeld, hAfter]
  exact trade_settle _ .closed obj.owned w.log

theorem sound_deserialize
    {w : World ι} {i k : ι} {obj : UnixRightsMessage}
    {msg : ReceiveMessageHeader.ControlMessage}
    {unread : Bool} {closed : Nat → Sys Unit}
    (hSound : Sound w.held w.log)
    (hHas : w.Has i obj)
    (hItem : w.items k = some (.arrived msg unread))
    (hNot : ¬ (Op.deserialize i k closed).Faulty w) :
    Sound (w.deserialize i k closed).held
      (w.deserialize i k closed).log := by
  by_cases hMatches : AncillaryMessage.Matches msg .rights
  · have hNone :
        ¬ (UnixRightsMessage.CloseFails obj closed ∨
          unread = false ∧ installed msg ≠ []) := by
      intro hFault
      exact
        hNot ⟨obj, msg, unread, hHas, hItem, hMatches, hFault⟩
    rw [not_or] at hNone
    rw [deserialize_eq hHas hItem hMatches hNone.1]
    have hCleared :
        Sound
          (Places.held Item.owned
            (Function.update w.items i (some (.rights {}))))
          ((obj.owned.map (.settled .closed)).reverse ++
            w.log) :=
      sound_cleared hSound hHas rfl
    have hTaken :
        Places.heldBy Item.owned
            (some (.rights
              (UnixRightsMessage.holding
                (UnixRightsMessage.received msg)))) =
          Places.held Item.owned
            (Function.update w.items i (some (.rights {})))
            k := by
      have hne := ne_of_has hHas hItem
      rw [Places.held_update,
        Function.update_of_ne hne.symm]
      unfold Places.held
      rw [hItem, Places.heldBy_some, Places.heldBy_some]
      cases unread with
      | true => simp [Item.owned, installed, hMatches]
      | false =>
          have hEmpty : installed msg = [] := by
            simpa using hNone.2
          simpa [Item.owned, installed] using hEmpty
    have hMoved :=
      Places.sound_of_move (h := i) (k := k)
        (b := some (.arrived msg false)) hCleared hTaken
        rfl (by simp [Places.held, Item.owned,
          UnixRightsMessage.owned])
    rw [Function.update_idem] at hMoved
    exact hMoved
  · rw [deserialize_mismatch hHas hItem hMatches]
    exact hSound

theorem sound_copy
    {w : World ι} {i j : ι}
    (hSound : Sound w.held w.log)
    (hNot : ¬ CopyFaulty w i j) :
    Sound (w.copy i j).held (w.copy i j).log := by
  unfold World.copy
  by_cases hSame : i = j
  · rw [hSame, Function.update_eq_self]
    exact hSound
  · have hNone : w.held i = [] ∧ w.held j = [] := by
      simpa [CopyFaulty, hSame] using hNot
    exact sound_update hSound hNone.1 hNone.2

/- Without a fault the destructor closes everything. -/
theorem log_closeUnclaimed
    {obj : UnixRightsMessage} {closed : Nat → Sys Unit}
    (hEarly :
      obj.mUnclaimedFds = true →
        obj.mFds.zipIdx.Pairwise
          (UnixRightsMessage.EarlyWorks closed))
    (log : List (Entry FileNum)) :
    ((UnixRightsMessage.closeUnclaimed closed).run
      ⟨obj, log⟩).2.log =
        (obj.owned.map (.settled .closed)).reverse ++
          log := by
  by_cases hFails :
      UnixRightsMessage.CloseFails obj closed
  · rcases
        UnixRightsMessage.run_closeUnclaimed_fails
          (s := ⟨obj, log⟩) hFails with
      ⟨ex, done, hRun, -, -, hAll⟩
    rw [hRun, hAll.mpr (hEarly hFails.1)]
  · rw [UnixRightsMessage.run_closeUnclaimed hFails]

theorem sound_destroy
    {w : World ι} {i : ι} {obj : UnixRightsMessage}
    {closed : Nat → Sys Unit}
    (hSound : Sound w.held w.log)
    (hHas : w.Has i obj)
    (hNot : ¬ (Op.destroy i closed).Faulty w) :
    Sound (w.destroy i closed).held
      (w.destroy i closed).log := by
  unfold World.destroy
  rw [hHas]
  simp only
  rw [log_closeUnclaimed]
  · exact sound_cleared hSound hHas rfl
  · intro hFlag
    by_contra hLate
    exact hNot ⟨obj, hHas, hFlag, hLate⟩

theorem sound_step
    {w : World ι} {op : Op ι}
    (hSound : Sound w.held w.log)
    (hLegal : op.Legal w)
    (hNot : ¬ op.Faulty w) :
    Sound (w.step op).held (w.step op).log := by
  cases op with
  | construct i =>
      exact sound_update hSound (held_of_none hLegal) rfl
  | arrive i msg => exact sound_arrive hSound hLegal
  | addFD i fd =>
      rcases hLegal with ⟨obj, hHas⟩
      exact sound_addFD hSound hHas hNot
  | clearFDs i closed =>
      rcases hLegal with ⟨obj, hHas⟩
      apply sound_clearFDs hSound hHas
      intro hFails
      exact hNot ⟨obj, hHas, hFails⟩
  | deserialize i k closed =>
      rcases hLegal with ⟨⟨obj, hHas⟩, msg, unread, hItem⟩
      exact sound_deserialize hSound hHas hItem hNot
  | takeFDs i =>
      rcases hLegal with ⟨obj, hHas⟩
      exact sound_takeFDs hSound hHas
  | serialize i => exact hSound
  | copyConstruct i j => exact sound_copy hSound hNot
  | moveConstruct i j => exact sound_copy hSound hNot
  | copyAssign i j => exact sound_copy hSound hNot
  | moveAssign i j => exact sound_copy hSound hNot
  | destroy i closed =>
      rcases hLegal with ⟨obj, hHas⟩
      exact sound_destroy hSound hHas hNot

------------------------------------------------------------
-- Operations That Are Faulty
------------------------------------------------------------

theorem not_sound_addFD
    {w : World ι} {i : ι} {fd : FileNum}
    {obj : UnixRightsMessage}
    (hSound : Sound w.held w.log)
    (hHas : w.Has i obj)
    (hFlag : obj.mUnclaimedFds = true)
    (hValid : fd ≠ FileNum.invalid) :
    ¬ Sound (w.act i (UnixRightsMessage.addFD fd)).held
      (w.act i (UnixRightsMessage.addFD fd)).log := by
  have hNew :
      Item.owned
          (.rights { obj with mFds := obj.mFds ++ [fd] }) =
        obj.owned ++ [fd] := by
    simp [Item.owned, UnixRightsMessage.owned, hFlag,
      hValid]
  have hHeld :
      Places.held Item.owned w.items i = obj.owned :=
    held_of_has hHas
  unfold World.act UnixRightsMessage.addFD
  rw [hHas]
  simp only [Frame.run_assign]
  by_cases hTwice : fd ∈ obj.owned
  · apply not_sound_of_twice (h := i)
    unfold World.held
    rw [Places.held_update, Function.update_self,
      Places.heldBy_some, hNew, List.nodup_append]
    rintro ⟨-, -, hApart⟩
    exact
      hApart fd hTwice fd (List.mem_singleton.mpr rfl) rfl
  · apply Places.not_sound_of_change hSound
    refine ⟨fd, ?_⟩
    rw [hHeld, Places.heldBy_some, hNew]
    intro hSame
    exact hTwice (hSame.mp List.mem_concat_self)

/- Descriptors that were closed and that are still there. -/
omit [DecidableEq ι] in
theorem not_sound_of_done
    {w : World ι} {i : ι} {obj : UnixRightsMessage}
    {done : List FileNum}
    (hSound : Sound w.held w.log)
    (hHas : w.Has i obj)
    (hSome : done ≠ [])
    (hPart : done <+: obj.owned) :
    ¬ Sound w.held
      ((done.map (.settled .closed)).reverse ++ w.log) := by
  rcases List.exists_mem_of_ne_nil done hSome with
    ⟨fd, hMem⟩
  have hHeld : fd ∈ w.held i := by
    rw [held_of_has hHas]
    exact hPart.subset hMem
  have hClosed :
      Entry.settled .closed fd ∈
        (done.map (Entry.settled .closed)).reverse :=
    List.mem_reverse.mpr (List.mem_map_of_mem hMem)
  apply not_sound_of_kept hSound hHeld hClosed
  · intro hEntry
    rcases List.mem_map.mp (List.mem_reverse.mp hEntry) with
      ⟨other, -, hOther⟩
    cases hOther
  · exact hHeld

theorem not_sound_clearFDs
    {w : World ι} {i : ι} {obj : UnixRightsMessage}
    {closed : Nat → Sys Unit}
    (hSound : Sound w.held w.log)
    (hHas : w.Has i obj)
    (hFails : UnixRightsMessage.CloseFails obj closed) :
    ¬ Sound
      (w.act i (UnixRightsMessage.clearFDs closed)).held
      (w.act i
        (UnixRightsMessage.clearFDs closed)).log := by
  rcases
      UnixRightsMessage.run_clearFDs_fails
        (s := ⟨obj, w.log⟩) hFails with
    ⟨ex, done, hRun, hSome, hPart⟩
  have hKeep :
      Function.update w.items i (some (.rights obj)) =
        w.items := by
    rw [← hHas]
    exact Function.update_eq_self i w.items
  unfold World.act
  rw [hHas]
  simp only [hRun, hKeep]
  exact not_sound_of_done hSound hHas hSome hPart

theorem not_sound_deserialize_fails
    {w : World ι} {i k : ι} {obj : UnixRightsMessage}
    {msg : ReceiveMessageHeader.ControlMessage}
    {unread : Bool} {closed : Nat → Sys Unit}
    (hSound : Sound w.held w.log)
    (hHas : w.Has i obj)
    (hItem : w.items k = some (.arrived msg unread))
    (hMatches : AncillaryMessage.Matches msg .rights)
    (hFails : UnixRightsMessage.CloseFails obj closed) :
    ¬ Sound (w.deserialize i k closed).held
      (w.deserialize i k closed).log := by
  rcases
      UnixRightsMessage.run_deserialize_fails
        (s := ⟨obj, w.log⟩) hMatches hFails with
    ⟨ex, done, hRun, hSome, hPart⟩
  unfold World.deserialize
  rw [hHas, hItem]
  simp only [hRun, update_items_self hHas hItem]
  exact not_sound_of_done hSound hHas hSome hPart

/- What was parsed before is not there a second time. -/
theorem not_sound_deserialize_again
    {w : World ι} {i k : ι} {obj : UnixRightsMessage}
    {msg : ReceiveMessageHeader.ControlMessage}
    {closed : Nat → Sys Unit}
    (hSound : Sound w.held w.log)
    (hHas : w.Has i obj)
    (hItem : w.items k = some (.arrived msg false))
    (hMatches : AncillaryMessage.Matches msg .rights)
    (hCloses :
      ¬ UnixRightsMessage.CloseFails obj closed)
    (hSome : installed msg ≠ []) :
    ¬ Sound (w.deserialize i k closed).held
      (w.deserialize i k closed).log := by
  have hne := ne_of_has hHas hItem
  have hCleared :
      Sound
        (Places.held Item.owned
          (Function.update w.items i (some (.rights {}))))
        ((obj.owned.map (.settled .closed)).reverse ++
          w.log) :=
    sound_cleared hSound hHas rfl
  rcases List.exists_mem_of_ne_nil _ hSome with ⟨fd, hMem⟩
  rw [deserialize_eq hHas hItem hMatches hCloses]
  unfold World.held
  simp only [Places.held_update]
  rw [Places.held_update] at hCleared
  apply not_sound_of_phantom hCleared (h := i) (r := fd)
  · intro l hl
    rw [Function.update_of_ne hl]
    by_cases hk : l = k
    · rw [hk, Function.update_self]
      unfold Places.held
      rw [hItem]
    · rw [Function.update_of_ne hk,
        Function.update_of_ne hl]
  · rw [Function.update_self]
    exact List.not_mem_nil
  · rw [Function.update_of_ne hne, Function.update_self]
    exact hMem

omit [DecidableEq ι] in
theorem nodup_owned
    {w : World ι} {i : ι} {obj : UnixRightsMessage}
    (hSound : Sound w.held w.log)
    (hHas : w.Has i obj) : obj.owned.Nodup := by
  rcases hSound with ⟨out, hBooks⟩
  rw [← held_of_has hHas]
  exact hBooks.nodup i

/- A call that fails too early is one that fails. -/
omit [DecidableEq ι] in
theorem closeFails_of_not_pairwise
    {obj : UnixRightsMessage} {closed : Nat → Sys Unit}
    (hFlag : obj.mUnclaimedFds = true)
    (hLate :
      ¬ obj.mFds.zipIdx.Pairwise
        (UnixRightsMessage.EarlyWorks closed)) :
    UnixRightsMessage.CloseFails obj closed := by
  by_contra hWorks
  apply hLate
  apply List.pairwise_iff_forall_sublist.mpr
  intro p q hSub hValid _
  by_contra hError
  exact
    hWorks
      ⟨hFlag, p, hSub.subset List.mem_cons_self, hValid,
        hError⟩

theorem not_sound_destroy
    {w : World ι} {i : ι} {obj : UnixRightsMessage}
    {closed : Nat → Sys Unit}
    (hSound : Sound w.held w.log)
    (hHas : w.Has i obj)
    (hFlag : obj.mUnclaimedFds = true)
    (hLate :
      ¬ obj.mFds.zipIdx.Pairwise
        (UnixRightsMessage.EarlyWorks closed)) :
    ¬ Sound (w.destroy i closed).held
      (w.destroy i closed).log := by
  have hFails := closeFails_of_not_pairwise hFlag hLate
  have hNodup := nodup_owned hSound hHas
  rcases
      UnixRightsMessage.run_closeUnclaimed_fails
        (s := ⟨obj, w.log⟩) hFails with
    ⟨ex, done, hRun, -, ⟨left, hLeft⟩, hAll⟩
  simp only at hLeft hAll
  cases left with
  | nil =>
      rw [List.append_nil] at hLeft
      exact absurd (hAll.mp hLeft) hLate
  | cons fd left =>
      have hMem : fd ∈ obj.owned := by
        rw [← hLeft]
        exact
          List.mem_append_right _ List.mem_cons_self
      have hOpen : fd ∉ done := by
        intro hDone
        rw [← hLeft, List.nodup_append] at hNodup
        exact
          hNodup.2.2 fd hDone fd List.mem_cons_self rfl
      have hHeld : fd ∈ w.held i := by
        rw [held_of_has hHas]
        exact hMem
      unfold World.destroy
      rw [hHas]
      simp only [hRun]
      unfold World.held
      rw [Places.held_update]
      apply not_sound_of_forgotten _ hSound hHeld
      · intro way hEntry
        rcases
            List.mem_map.mp (List.mem_reverse.mp hEntry) with
          ⟨other, hDone, hOther⟩
        injection hOther with _ hSame
        rw [hSame] at hDone
        exact hOpen hDone
      · exact List.not_mem_nil

theorem not_sound_copy
    {w : World ι} {i j : ι}
    (hSound : Sound w.held w.log)
    (hFaulty : CopyFaulty w i j) :
    ¬ Sound (w.copy i j).held (w.copy i j).log :=
  Places.not_sound_of_copy hSound hFaulty.1 rfl hFaulty.2

theorem not_sound_step
    {w : World ι} {op : Op ι}
    (hSound : Sound w.held w.log)
    (hFaulty : op.Faulty w) :
    ¬ Sound (w.step op).held (w.step op).log := by
  cases op with
  | construct i => exact absurd hFaulty id
  | arrive i msg => exact absurd hFaulty id
  | takeFDs i => exact absurd hFaulty id
  | serialize i => exact absurd hFaulty id
  | addFD i fd =>
      rcases hFaulty with ⟨hValid, obj, hHas, hFlag⟩
      exact not_sound_addFD hSound hHas hFlag hValid
  | clearFDs i closed =>
      rcases hFaulty with ⟨obj, hHas, hFails⟩
      exact not_sound_clearFDs hSound hHas hFails
  | deserialize i k closed =>
      rcases hFaulty with
        ⟨obj, msg, unread, hHas, hItem, hMatches, hFault⟩
      by_cases hFails :
          UnixRightsMessage.CloseFails obj closed
      · exact
          not_sound_deserialize_fails hSound hHas hItem
            hMatches hFails
      · rcases hFault with hFault | ⟨rfl, hSome⟩
        · exact absurd hFault hFails
        · exact
            not_sound_deserialize_again hSound hHas hItem
              hMatches hFails hSome
  | copyConstruct i j => exact not_sound_copy hSound hFaulty
  | moveConstruct i j => exact not_sound_copy hSound hFaulty
  | copyAssign i j => exact not_sound_copy hSound hFaulty
  | moveAssign i j => exact not_sound_copy hSound hFaulty
  | destroy i closed =>
      rcases hFaulty with ⟨obj, hHas, hFlag, hLate⟩
      exact not_sound_destroy hSound hHas hFlag hLate

------------------------------------------------------------
-- Runs
------------------------------------------------------------

/- A process without objects and messages. -/
def start : World ι where
  items := fun _ => none
  log := []
  ended := false

omit [DecidableEq ι] in
theorem sound_start :
    Sound (start : World ι).held (start : World ι).log :=
  sound_nil fun _ => rfl

/-
  In a run the received descriptors are conserved exactly as
  long as no operation is faulty.
-/
theorem rights_conserved_along_iff
    (ops : List (Op ι))
    (hLegal : machine.Legal start ops) :
    machine.Along (fun _ _ w => Conserved w) start ops ↔
      machine.Along (fun w op _ => ¬ op.Faulty w)
        start ops := by
  refine
    Machine.along_iff_of_invariant
      (fun w => Sound w.held w.log)
      ?_ ?_ ops start sound_start hLegal
  · intro w op hSound hOp hNot
    have hAfter := sound_step hSound hOp.2 hNot
    exact ⟨hAfter, .of_sound hAfter⟩
  · intro w op hSound _ hFaulty hConserved
    exact
      not_sound_step hSound (Classical.not_not.mp hFaulty)
        hConserved.sound

end Worlds

/- A received message with descriptor 5. -/
def five : ReceiveMessageHeader.ControlMessage where
  content :=
    [20, 0, 0, 0, 0, 0, 0, 0, 1, 0, 0, 0, 1, 0, 0, 0,
      5, 0, 0, 0, 0, 0, 0, 0]
  pos := 0

theorem received_five :
    UnixRightsMessage.received five = [⟨5⟩] :=
  UnixRightsMessage.received_eq rfl rfl

def works : Nat → Sys Unit :=
  fun _ => .ok ()

/- What there is after an object parsed the message. -/
def parsedFive : World Bool where
  items
  | true => some (.rights ⟨[⟨5⟩], true⟩)
  | false => some (.arrived five false)
  log := [.acquired ⟨5⟩]
  ended := false

theorem owned_five :
    (Item.arrived five true).owned = [⟨5⟩] := by
  have hMatches :
      AncillaryMessage.Matches five .rights := by
    decide
  simp only [Item.owned, installed, hMatches, and_self,
    if_true, received_five]
  rfl

theorem step_five :
    (((start : World Bool).step (.construct true)).step
      (.arrive false five)).step
        (.deserialize true false works) = parsedFive := by
  have hMatches :
      AncillaryMessage.Matches five .rights := by
    decide
  have hCloses :
      ¬ UnixRightsMessage.CloseFails {} works := by
    rintro ⟨hFlag, -⟩
    cases hFlag
  have hEq :=
    deserialize_eq (i := true) (k := false)
      (w :=
        ((start : World Bool).step (.construct true)).step
          (.arrive false five))
      rfl rfl hMatches hCloses
  refine hEq.trans ?_
  unfold parsedFive
  congr 1
  · funext i
    rw [received_five]
    cases i <;> rfl
  · simp only [World.step, World.arrive, owned_five]
    rfl

theorem legal_five
    {ops : List (Op Bool)}
    (hRest : machine.Legal parsedFive ops) :
    machine.Legal start
      (.construct true :: .arrive false five ::
        .deserialize true false works :: ops) := by
  refine
    ⟨⟨rfl, rfl⟩, ⟨rfl, rfl, ?_, ?_⟩,
      ⟨rfl, ⟨_, rfl⟩, _, _, rfl⟩, ?_⟩
  · rw [owned_five]
    exact List.nodup_singleton _
  · intro fd _ k
    cases k <;> exact List.not_mem_nil
  · have hState := step_five
    simp only [machine] at hState hRest ⊢
    rw [hState]
    exact hRest

/-
  An object parses a message, hands the descriptor out, gets
  another one to send, is copied and destroyed.
-/
theorem rights_conserved_along_hand_out :
    machine.Along (fun _ _ w => Conserved w)
      (start : World Bool)
      [.construct true, .arrive false five,
        .deserialize true false works, .takeFDs true,
        .addFD true ⟨7⟩, .serialize true,
        .copyAssign true true, .destroy true works] := by
  refine
    (rights_conserved_along_iff
      [.construct true, .arrive false five,
        .deserialize true false works, .takeFDs true,
        .addFD true ⟨7⟩, .serialize true,
        .copyAssign true true, .destroy true works]
      ?_).mpr ?_
  · apply legal_five
    exact
      ⟨⟨rfl, _, rfl⟩, ⟨rfl, _, rfl⟩, ⟨rfl, _, rfl⟩,
        ⟨rfl, ⟨_, rfl⟩, _, rfl⟩, ⟨rfl, _, rfl⟩, trivial⟩
  · refine ⟨id, id, ?_, ?_⟩
    · rintro ⟨obj, msg, unread, hHas, hItem, -, hFault⟩
      cases hHas
      cases hItem
      rcases hFault with ⟨hFlag, -⟩ | ⟨hRead, -⟩
      · cases hFlag
      · cases hRead
    · have hState := step_five
      simp only [machine] at hState ⊢
      rw [hState]
      refine ⟨id, ?_, id, ?_, ?_, trivial⟩
      · rintro ⟨-, obj, hHas, hFlag⟩
        cases hHas
        cases hFlag
      · rintro ⟨hNe, -⟩
        exact hNe rfl
      · rintro ⟨obj, hHas, hFlag, -⟩
        cases hHas
        cases hFlag

/-
  A descriptor that is added to an object with a received
  one is closed together with it.
-/
theorem added_descriptor_is_closed :
    let ops : List (Op Bool) :=
      [.construct true, .arrive false five,
        .deserialize true false works, .addFD true ⟨7⟩,
        .destroy true works]
    machine.Legal start ops ∧
      (machine.run start ops).log =
        [.settled .closed ⟨7⟩, .settled .closed ⟨5⟩,
          .acquired ⟨5⟩] ∧
      ¬ machine.Along (fun _ _ w => Conserved w)
        start ops := by
  intro ops
  have hState := step_five
  refine ⟨?_, ?_, ?_⟩
  · apply legal_five
    exact ⟨⟨rfl, _, rfl⟩, ⟨rfl, _, rfl⟩, trivial⟩
  · simp only [ops, Machine.run, machine]
    rw [hState]
    rfl
  · rintro ⟨-, -, -, hRest⟩
    simp only [machine] at hState hRest
    rw [hState] at hRest
    rcases hRest with ⟨-, hEnd, -⟩
    rcases hEnd.sound with ⟨out, hBooks⟩
    have hTwice :
        outstanding
          [.settled .closed ⟨7⟩, .settled .closed ⟨5⟩,
            .acquired (⟨5⟩ : FileNum)] = none := rfl
    exact nomatch hTwice.symm.trans hBooks.replay

end Rights

end Cosmos
