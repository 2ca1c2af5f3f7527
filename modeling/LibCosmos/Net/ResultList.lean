import LibCosmos.Core.Ledger
import LibCosmos.Error.CosmosError
import LibCosmos.Foundation.Machine

/-
  Lists that libc allocates and the objects that own them
  (`include/net/inet/AddressInfoList.hxx`,
  `include/net/ifs/InterfaceAddressList.hxx`,
  `include/net/ifs/InterfaceEnumerator.hxx` and their
  sources).

  The three classes declare a destructor and nothing about
  copies, so that the compiler copies the pointer, also
  where a move is asked for. A list is known by its address.

  Main declarations:
    * `ResultList`, `AddressInfoList.resolve`,
      `InterfaceAddressList.fetch`,
      `InterfaceEnumerator.fetch`
    * `ResultList.Op`, `ResultList.Op.Faulty`
    * `ResultList.Owned`
    * `ResultList.owned_along_iff`
-/

namespace Cosmos

open Custody

------------------------------------------------------------
-- Objects
------------------------------------------------------------

/- The address of a list. -/
abbrev ListAddr := Nat

/- The class of an object. -/
inductive ResultKind where
| addressInfoList
| interfaceAddressList
| interfaceEnumerator
deriving DecidableEq, Repr

/- An object with its pointer, `m_addrs` or `m_list`. -/
structure ResultList where
  kind : ResultKind
  mList : Option ListAddr
deriving DecidableEq, Repr

namespace ResultList

def valid (this : ResultList) : Bool :=
  this.mList.isSome

/- The pointer to a list is owned. -/
def owned (this : ResultList) : List ListAddr :=
  this.mList.toList

/- Free the list, if there is one. -/
def clear : Method (Ledger ResultList ListAddr) Unit := do
  let this ← Ledger.self
  match this.mList with
  | some list => do
      Ledger.record (.settled .closed list)
      Ledger.assign fun this => { this with mList := none }
  | none => pure ()

/-
  Free the list and ask libc for a new one. Where libc
  fails, the pointer stays as it is.
-/
def refill (answer : Except Exn (Option ListAddr)) :
    Method (Ledger ResultList ListAddr) Unit := do
  clear
  match answer with
  | .ok (some list) => do
      Ledger.record (.acquired list)
      Ledger.assign fun this =>
        { this with mList := some list }
  | .ok none => pure ()
  | .error e => Command.raise e

end ResultList

/- A `ResolveError`, without the text that libc adds. -/
def resolveError (code : Int32) : Exn :=
  .stdException (ResolveError.resolveCodeLabel code)

/- `getaddrinfo()` returns 0 and a list or an error code. -/
def AddressInfoList.resolve
    (answer : Except Int32 ListAddr) :
    Method (Ledger ResultList ListAddr) Unit :=
  ResultList.refill
    (match answer with
    | .ok list => .ok (some list)
    | .error res => .error (resolveError res))

/- `getifaddrs()`; a system can be without addresses. -/
def InterfaceAddressList.fetch
    (answer : Except Errno (Option ListAddr)) :
    Method (Ledger ResultList ListAddr) Unit :=
  ResultList.refill
    (match answer with
    | .ok list => .ok list
    | .error e => .error (.apiError e (str "getifaddrs()")))

/- `if_nameindex()` returns a null pointer on error. -/
def InterfaceEnumerator.fetch
    (answer : Except Errno ListAddr) :
    Method (Ledger ResultList ListAddr) Unit :=
  ResultList.refill
    (match answer with
    | .ok list => .ok (some list)
    | .error e => .error (.apiError e (str "ifnameindex()")))

namespace ResultList

/- A lookup of one of the classes, with libc's answer. -/
inductive Lookup where
| resolve (answer : Except Int32 ListAddr)
| fetchAddresses
    (answer : Except Errno (Option ListAddr))
| fetchInterfaces (answer : Except Errno ListAddr)

namespace Lookup

def kind : Lookup → ResultKind
| .resolve _ => .addressInfoList
| .fetchAddresses _ => .interfaceAddressList
| .fetchInterfaces _ => .interfaceEnumerator

def method :
    Lookup → Method (Ledger ResultList ListAddr) Unit
| .resolve answer => AddressInfoList.resolve answer
| .fetchAddresses answer =>
    InterfaceAddressList.fetch answer
| .fetchInterfaces answer =>
    InterfaceEnumerator.fetch answer

/- The list that libc allocated. -/
def allocated : Lookup → Option ListAddr
| .resolve (.ok list) => some list
| .fetchAddresses (.ok list) => list
| .fetchInterfaces (.ok list) => some list
| _ => none

end Lookup

------------------------------------------------------------
-- Operations
------------------------------------------------------------

/- The objects by their places, and the lists so far. -/
structure World (ι : Type) where
  objs : ι → Option ResultList
  log : List (Entry ListAddr)

def World.owned {ι : Type} (w : World ι) :
    ι → List ListAddr :=
  Places.held ResultList.owned w.objs

inductive Op (ι : Type) where
| construct (h : ι) (kind : ResultKind)
| lookup (h : ι) (l : Lookup)
| clear (h : ι)
| copyConstruct (h k : ι)
| copyAssign (h k : ι)
| iterate (h : ι)
| destroy (h : ι)

section Worlds

variable {ι : Type} [DecidableEq ι]

/- A member function of the object at `h`. -/
def World.call
    (w : World ι) (h : ι)
    (m : Method (Ledger ResultList ListAddr) Unit) :
    World ι :=
  match w.objs h with
  | none => w
  | some this =>
      let s := Ledger.after m this w.log
      { objs := Function.update w.objs h (some s.this)
        log := s.log }

def World.step (w : World ι) : Op ι → World ι
| .construct h kind =>
    { w with
      objs :=
        Function.update w.objs h (some ⟨kind, none⟩) }
| .lookup h l => w.call h l.method
| .clear h => w.call h clear
| .copyConstruct h k =>
    { w with objs := Function.update w.objs h (w.objs k) }
| .copyAssign h k =>
    { w with objs := Function.update w.objs h (w.objs k) }
| .iterate _ => w
| .destroy h =>
    let cleared := w.call h clear
    { cleared with
      objs := Function.update cleared.objs h none }

/- A process in which no object was made yet. -/
def start : World ι where
  objs _ := none
  log := []

/-
  Operations make sense on live objects of the right class,
  and libc returns no list that another object owns.
-/
def Op.Legal (w : World ι) : Op ι → Prop
| .construct h _ => w.objs h = none
| .lookup h l =>
    ∃ this, w.objs h = some this ∧ this.kind = l.kind ∧
      ∀ list, l.allocated = some list →
        ∀ k, k ≠ h → list ∉ w.owned k
| .clear h => ∃ this, w.objs h = some this
| .copyConstruct h k =>
    w.objs h = none ∧ ∃ other, w.objs k = some other
| .copyAssign h k =>
    ∃ this other, w.objs h = some this ∧
      w.objs k = some other ∧ this.kind = other.kind
| .iterate h => ∃ this, w.objs h = some this
| .destroy h => ∃ this, w.objs h = some this

/- A copy that an owned list takes part in. -/
def Op.Faulty (w : World ι) : Op ι → Prop
| .copyConstruct _ k => w.owned k ≠ []
| .copyAssign h k =>
    h ≠ k ∧ (w.owned h ≠ [] ∨ w.owned k ≠ [])
| _ => False

/- A list that was allocated and not freed since. -/
def Allocated (log : List (Entry ListAddr))
    (list : ListAddr) : Prop :=
  ∃ out, outstanding log = some out ∧ list ∈ out

/-
  After an operation every list was freed exactly once for
  each time it was allocated, or is still to be freed by the
  one object that owns it. The list that is iterated over is
  there, and the valid objects own one.
-/
structure Owned
    (w : World ι) (op : Op ι) (w' : World ι) : Prop where
  sound : Sound w'.owned w'.log
  accounted :
    ∀ list,
      ((∃ h, list ∈ w'.owned h) ∧
        w'.log.count (.acquired list) =
          w'.log.count (.settled .closed list) +
            w'.log.count (.settled .handedOut list) + 1) ∨
      ((∀ h, list ∉ w'.owned h) ∧
        w'.log.count (.acquired list) =
          w'.log.count (.settled .closed list) +
            w'.log.count (.settled .handedOut list))
  iterated :
    ∀ h, op = .iterate h →
      ∀ list ∈ w.owned h, Allocated w.log list
  valid :
    ∀ h this, w'.objs h = some this →
      (this.valid = true ↔
        ∃ list ∈ this.owned, Allocated w'.log list)

------------------------------------------------------------
-- Member Functions Are Trades
------------------------------------------------------------

/- Clearing settles what is owned. -/
theorem after_clear
    (this : ResultList) (log : List (Entry ListAddr)) :
    Ledger.after clear this log =
      ⟨{ this with mList := none },
        (this.owned.map (.settled .closed)).reverse ++
          log⟩ := by
  rcases this with ⟨kind, mList⟩
  cases mList <;> rfl

theorem trade_clear
    (free : ListAddr → Prop)
    (this : ResultList) (log : List (Entry ListAddr)) :
    Trade free this.owned log
      (Ledger.after clear this log).this.owned
      (Ledger.after clear this log).log := by
  have hAll :=
    Trade.settleAll free .closed [] this.owned log
  rw [List.append_nil] at hAll
  rw [after_clear]
  exact hAll

/- A lookup clears and then takes the new list. -/
theorem trade_refill
    {free : ListAddr → Prop}
    {answer : Except Exn (Option ListAddr)}
    (this : ResultList) (log : List (Entry ListAddr))
    (hFree :
      ∀ list, answer = .ok (some list) → free list) :
    Trade free this.owned log
      (Ledger.after (refill answer) this log).this.owned
      (Ledger.after (refill answer) this log).log := by
  have hClear := trade_clear free this log
  have hAfter := after_clear this log
  have hRun : clear.run ⟨this, log⟩ =
      (.returned (), Ledger.after clear this log) := by
    rcases this with ⟨kind, mList⟩
    cases mList <;> rfl
  cases answer with
  | error e =>
      have hSame : Ledger.after (refill (.error e)) this log =
          Ledger.after clear this log := by
        unfold refill
        rw [Ledger.after, Command.run_bind_returned hRun]
        rfl
      rw [hSame]
      exact hClear
  | ok new =>
      cases new with
      | none =>
          have hSame :
              Ledger.after (refill (.ok none)) this log =
                Ledger.after clear this log := by
            unfold refill
            rw [Ledger.after, Command.run_bind_returned hRun]
            rfl
          rw [hSame]
          exact hClear
      | some list =>
          have hNew :
              Ledger.after (refill (.ok (some list))) this
                  log =
                ⟨{ this with mList := some list },
                  .acquired list ::
                    (Ledger.after clear this log).log⟩ := by
            unfold refill
            rw [Ledger.after, Command.run_bind_returned hRun,
              hAfter]
            rfl
          rw [hNew]
          have hNone :
              (Ledger.after clear this log).this.owned = [] := by
            rw [hAfter]
            rfl
          rw [hNone] at hClear
          exact
            .acquire hClear (hFree list rfl)
              List.not_mem_nil (.refl _)

theorem trade_lookup
    {free : ListAddr → Prop} {l : Lookup}
    (this : ResultList) (log : List (Entry ListAddr))
    (hFree : ∀ list, l.allocated = some list → free list) :
    Trade free this.owned log
      (Ledger.after l.method this log).this.owned
      (Ledger.after l.method this log).log := by
  cases l with
  | resolve answer =>
      apply trade_refill
      intro list hAnswer
      apply hFree
      cases answer with
      | ok list' => simpa [Lookup.allocated] using hAnswer
      | error res => cases hAnswer
  | fetchAddresses answer =>
      apply trade_refill
      intro list hAnswer
      apply hFree
      cases answer with
      | ok list' => simpa [Lookup.allocated] using hAnswer
      | error e => cases hAnswer
  | fetchInterfaces answer =>
      apply trade_refill
      intro list hAnswer
      apply hFree
      cases answer with
      | ok list' => simpa [Lookup.allocated] using hAnswer
      | error e => cases hAnswer

------------------------------------------------------------
-- One Operation
------------------------------------------------------------

theorem sound_call
    {w : World ι} {h : ι} {this : ResultList}
    {m : Method (Ledger ResultList ListAddr) Unit}
    {free : ListAddr → Prop}
    (hSound : Sound w.owned w.log)
    (hObj : w.objs h = some this)
    (hTrade :
      Trade free this.owned w.log
        (Ledger.after m this w.log).this.owned
        (Ledger.after m this w.log).log)
    (hFree :
      ∀ list, free list → ∀ k, k ≠ h → list ∉ w.owned k) :
    Sound (w.call h m).owned (w.call h m).log := by
  unfold World.call
  rw [hObj]
  refine Places.sound_of_trade hSound ?_ hFree
  simpa [Places.held, hObj] using hTrade

/- An object goes, or comes, that owns nothing. -/
theorem sound_update
    {w : World ι} {h : ι} {obj : Option ResultList}
    (hSound : Sound w.owned w.log)
    (hBefore : w.owned h = [])
    (hAfter : Places.heldBy ResultList.owned obj = []) :
    Sound
      (Places.held ResultList.owned
        (Function.update w.objs h obj)) w.log := by
  refine
    Places.sound_of_trade hSound ?_
      (fun _ (hFalse : False) => hFalse.elim)
  unfold World.owned at hBefore
  rw [hBefore, hAfter]
  exact .refl

omit [DecidableEq ι] in
theorem owned_of_none
    {w : World ι} {h : ι} (hNone : w.objs h = none) :
    w.owned h = [] := by
  simp [World.owned, Places.held, hNone]

theorem sound_step
    {w : World ι} {op : Op ι}
    (hSound : Sound w.owned w.log)
    (hLegal : op.Legal w)
    (hGood : ¬ op.Faulty w) :
    Sound (w.step op).owned (w.step op).log := by
  cases op with
  | construct h kind =>
      exact sound_update hSound (owned_of_none hLegal) rfl
  | lookup h l =>
      rcases hLegal with ⟨this, hObj, -, hNew⟩
      exact
        sound_call hSound hObj (trade_lookup this w.log hNew)
          (fun _ hFree => hFree)
  | clear h =>
      rcases hLegal with ⟨this, hObj⟩
      exact
        sound_call hSound hObj (trade_clear _ this w.log)
          (fun _ (hFalse : False) => hFalse.elim)
  | copyConstruct h k =>
      have hNone : w.owned k = [] :=
        Classical.not_not.mp hGood
      exact
        sound_update hSound (owned_of_none hLegal.1) hNone
  | copyAssign h k =>
      by_cases hSame : h = k
      · subst hSame
        have hKeep :
            Function.update w.objs h (w.objs h) = w.objs :=
          Function.update_eq_self h w.objs
        simp only [World.step, hKeep]
        exact hSound
      · have hNone : w.owned h = [] ∧ w.owned k = [] := by
          simpa [Op.Faulty, hSame] using hGood
        exact sound_update hSound hNone.1 hNone.2
  | iterate h => exact hSound
  | destroy h =>
      rcases hLegal with ⟨this, hObj⟩
      have hCleared :=
        sound_call hSound hObj (trade_clear _ this w.log)
          (fun _ (hFalse : False) => hFalse.elim)
      refine sound_update hCleared ?_ rfl
      simp [World.owned, World.call, Places.held, hObj,
        after_clear, ResultList.owned]

omit [DecidableEq ι] in
/- What is owned in sound books is allocated. -/
theorem allocated_of_owned
    {w : World ι} (hSound : Sound w.owned w.log)
    {h : ι} {list : ListAddr} (hOwned : list ∈ w.owned h) :
    Allocated w.log list := by
  rcases hSound with ⟨out, hBooks⟩
  exact
    ⟨out, hBooks.replay, (hBooks.held list).mpr ⟨h, hOwned⟩⟩

omit [DecidableEq ι] in
theorem Owned.of_sound
    {w w' : World ι} {op : Op ι}
    (hBefore : Sound w.owned w.log)
    (hAfter : Sound w'.owned w'.log) :
    Owned w op w' where
  sound := hAfter
  accounted := hAfter.count_acquired
  iterated := fun _ _ _ hOwned =>
    allocated_of_owned hBefore hOwned
  valid := by
    intro h this hObj
    cases hList : this.mList with
    | none =>
        simp [ResultList.valid, ResultList.owned, hList]
    | some list =>
        have hOwned : list ∈ w'.owned h := by
          simp [World.owned, Places.held, hObj,
            ResultList.owned, hList]
        have hThere := allocated_of_owned hAfter hOwned
        simp [ResultList.valid, ResultList.owned, hList,
          hThere]

------------------------------------------------------------
-- Runs
------------------------------------------------------------

/- Objects driven by operations on them. -/
def machine : Machine (World ι) (Op ι) where
  legal w op := op.Legal w
  step := World.step

omit [DecidableEq ι] in
theorem sound_start :
    Sound (start : World ι).owned (start : World ι).log :=
  sound_nil fun _ => rfl

/-
  In a run of operations on objects of the three classes the
  lists are owned as they should be exactly as long as no
  owned list takes part in a copy.
-/
theorem owned_along_iff
    (ops : List (Op ι))
    (hLegal : machine.Legal start ops) :
    machine.Along Owned start ops ↔
      machine.Along (fun w op _ => ¬ op.Faulty w)
        start ops := by
  refine
    Machine.along_iff_of_invariant
      (fun w => Sound w.owned w.log)
      ?_ ?_ ops start sound_start hLegal
  · intro w op hSound hOp hGood
    have hAfter := sound_step hSound hOp hGood
    exact ⟨hAfter, .of_sound hSound hAfter⟩
  · intro w op hSound hOp hFaulty hOwned
    replace hFaulty := Classical.not_not.mp hFaulty
    cases op with
    | copyConstruct h k =>
        have hNe : h ≠ k := by
          rintro rfl
          exact hFaulty (owned_of_none hOp.1)
        exact
          Places.not_sound_of_copy hSound hNe rfl
            (Or.inr hFaulty) hOwned.sound
    | copyAssign h k =>
        exact
          Places.not_sound_of_copy hSound hFaulty.1 rfl
            hFaulty.2 hOwned.sound
    | _ => exact hFaulty

end Worlds

/-
  A list of addresses is fetched, iterated over, fetched
  anew without success and copied.
-/
theorem owned_along_failing_lookup :
    machine.Along Owned (start : World Bool)
      [.construct true .addressInfoList,
        .lookup true (.resolve (.ok 1)), .iterate true,
        .lookup true (.resolve (.error (-2))),
        .copyConstruct false true, .destroy true,
        .destroy false] := by
  refine
    (owned_along_iff
      [.construct true .addressInfoList,
        .lookup true (.resolve (.ok 1)), .iterate true,
        .lookup true (.resolve (.error (-2))),
        .copyConstruct false true, .destroy true,
        .destroy false] ?_).mpr ?_
  · refine
      ⟨rfl, ⟨_, rfl, rfl, ?_⟩, ⟨_, rfl⟩, ⟨_, rfl, rfl, ?_⟩,
        ⟨rfl, _, rfl⟩, ⟨_, rfl⟩, ⟨_, rfl⟩, trivial⟩
    · rintro list - k hk
      cases k with
      | true => exact absurd rfl hk
      | false => exact List.not_mem_nil
    · rintro list ⟨⟩
  · exact ⟨id, id, id, id, fun hOwner => hOwner rfl, id, id,
      trivial⟩

/- A copy of an object with a list, and both destructors. -/
theorem copied_list_is_freed_twice :
    machine.Legal (start : World Bool)
        [.construct true .interfaceEnumerator,
          .lookup true (.fetchInterfaces (.ok 1)),
          .copyConstruct false true, .destroy true,
          .destroy false] ∧
      (machine.run (start : World Bool)
          [.construct true .interfaceEnumerator,
            .lookup true (.fetchInterfaces (.ok 1)),
            .copyConstruct false true, .destroy true,
            .destroy false]).log =
        [.settled .closed 1, .settled .closed 1,
          .acquired 1] ∧
      ¬ machine.Along Owned (start : World Bool)
        [.construct true .interfaceEnumerator,
          .lookup true (.fetchInterfaces (.ok 1)),
          .copyConstruct false true, .destroy true,
          .destroy false] := by
  refine
    ⟨⟨rfl, ⟨_, rfl, rfl, ?_⟩, ⟨rfl, _, rfl⟩, ⟨_, rfl⟩,
      ⟨_, rfl⟩, trivial⟩, rfl, ?_⟩
  · rintro list - k hk
    cases k with
    | true => exact absurd rfl hk
    | false => exact List.not_mem_nil
  · rintro ⟨-, -, -, -, hOwned, -⟩
    rcases hOwned.sound with ⟨out, hBooks⟩
    have hTwice :
        outstanding
          [.settled .closed 1, .settled .closed 1,
            .acquired (1 : ListAddr)] = none := rfl
    exact nomatch hTwice.symm.trans hBooks.replay

end ResultList

end Cosmos
