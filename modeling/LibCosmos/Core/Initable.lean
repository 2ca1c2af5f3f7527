import LibCosmos.Core.Types
import LibCosmos.Foundation.KeyMap
import Mathlib.Data.List.Count
import Mathlib.Data.List.Nodup
import Mathlib.Data.Nat.Basic
import Mathlib.Logic.Function.Basic

/-
  Initialization and cleanup of the library
  (`src/cosmos.cxx`, `src/cosmos/private/Initable.hxx`).

  `P` are the priorities and `O` the objects that registered
  for initialization.

  Main declarations:
    * `Library`, `Library.init`, `Library.finish`
    * `Library.registerInitable`
    * `Library.rounds`, `Library.Lifecycle`
    * `Library.exists_lifecycle`
-/

namespace Cosmos

namespace Library

/- A call of a virtual function of an `Initable`. -/
inductive Event (O : Type) where
| libInit (o : O)
| libExit (o : O)
deriving DecidableEq, Repr

def Event.object {O : Type} : Event O → O
| .libInit o => o
| .libExit o => o

end Library

/-
  The global state: the counter of a type with 64 bits, the
  map of initables, which starts as a null pointer, and
  `m_lib_initialized` of every object. `log` are the calls of
  `libInit` and `libExit` so far.
-/
structure Library (P O : Type) where
  initCounter : BitVec 64 := 0
  initData : Option (List (P × O)) := none
  libInitialized : O → Bool := fun _ => false
  log : List (Library.Event O) := []

namespace Library

variable {P O : Type} [LinearOrder P] [DecidableEq O]

------------------------------------------------------------
-- Registration
------------------------------------------------------------

/- The map, which is empty for a null pointer. -/
def createInitData (lib : Library P O) : List (P × O) :=
  match lib.initData with
  | some initables => initables
  | none => []

/-
  `Initable::registerInitable` and in it `InitData::add`. A
  priority that is taken ends the process.
-/
def registerInitable
    (prio : P) (o : O) (lib : Library P O) :
    Except Halt (Library P O) :=
  match KeyMap.insert prio o lib.createInitData with
  | some initables =>
      .ok { lib with initData := some initables }
  | none => .error (.exit ⟨9⟩)

/- The constructors of static objects, one by one. -/
def registerAll :
    List (P × O) → Library P O →
    Except Halt (Library P O)
| [], lib => .ok lib
| (prio, o) :: objs, lib =>
    match lib.registerInitable prio o with
    | .ok lib' => registerAll objs lib'
    | .error halt => .error halt

------------------------------------------------------------
-- Calls
------------------------------------------------------------

/- The loops of `InitData::init` and `InitData::finish`. -/
def initObjects :
    List (P × O) → Library P O → Library P O
| [], lib => lib
| (_, o) :: rest, lib =>
    initObjects rest
      { lib with
        log := lib.log ++ [.libInit o]
        libInitialized :=
          Function.update lib.libInitialized o true }

def exitObjects :
    List (P × O) → Library P O → Library P O
| [], lib => lib
| (_, o) :: rest, lib =>
    exitObjects rest
      { lib with
        log := lib.log ++ [.libExit o]
        libInitialized :=
          Function.update lib.libInitialized o false }

def init (lib : Library P O) : Library P O :=
  let counted :=
    { lib with initCounter := lib.initCounter + 1 }
  if lib.initCounter = 0 then
    match lib.initData with
    | none => counted
    | some initables => initObjects initables counted
  else
    counted

def finish (lib : Library P O) : Library P O :=
  let counted :=
    { lib with initCounter := lib.initCounter - 1 }
  if lib.initCounter - 1 = 0 then
    match lib.initData with
    | none => counted
    | some initables =>
        exitObjects initables.reverse counted
  else
    counted

inductive Call where
| init
| finish
deriving DecidableEq, Repr

def call (lib : Library P O) : Call → Library P O
| .init => lib.init
| .finish => lib.finish

def run (lib : Library P O) : List Call → Library P O
| [] => lib
| c :: cs => run (lib.call c) cs

------------------------------------------------------------
-- What Calls Are For
------------------------------------------------------------

/- No prefix has more calls of `finish` than of `init`. -/
def Nested (calls : List Call) : Prop :=
  ∀ before, before <+: calls →
    before.count .finish ≤ before.count .init

/- In no prefix as many as `limit` calls are open. -/
def Below (limit : Nat) (calls : List Call) : Prop :=
  ∀ before, before <+: calls →
    before.count .init < before.count .finish + limit

/- A traversal of all objects. -/
inductive Round where
| startup
| shutdown
deriving DecidableEq, Repr

/- The rounds that calls mean when `depth` are open. -/
def rounds : Nat → List Call → List Round
| _, [] => []
| 0, .init :: calls => .startup :: rounds 1 calls
| depth + 1, .init :: calls => rounds (depth + 2) calls
| 0, .finish :: calls => rounds 0 calls
| 1, .finish :: calls => .shutdown :: rounds 0 calls
| depth + 2, .finish :: calls => rounds (depth + 1) calls

/- A round over objects in their ascending order. -/
def Round.events (order : List O) : Round → List (Event O)
| .startup => order.map .libInit
| .shutdown => order.reverse.map .libExit

/- The part of a round that is about one object. -/
def Round.event (o : O) : Round → Event O
| .startup => .libInit o
| .shutdown => .libExit o

/-
  `libInit` and `libExit` take turns; `up` tells whether the
  object is initialized at first.
-/
def Alternates : Bool → List (Event O) → Prop
| _, [] => True
| false, .libInit _ :: events => Alternates true events
| true, .libExit _ :: events => Alternates false events
| _, _ => False

/-
  What a library with objects of this order has done after
  some calls.
-/
structure Lifecycle
    (order : List O) (lib : Library P O)
    (calls : List Call) : Prop where
  initialized :
    ∀ o ∈ order,
      (lib.run calls).libInitialized o = true ↔
        calls.count .finish < calls.count .init
  alternate :
    ∀ o ∈ order,
      Alternates false
        ((lib.run calls).log.filter fun event =>
          event.object = o)
  rounds :
    (lib.run calls).log =
      (rounds 0 calls).flatMap (Round.events order)
  inner :
    ∀ before inside,
      calls = before ++ inside →
      before.count .finish < before.count .init →
      Nested inside →
      (lib.run calls).log = (lib.run before).log

------------------------------------------------------------
-- One Call
------------------------------------------------------------

omit [LinearOrder P] in
theorem initObjects_eq :
    ∀ (objs : List (P × O)) (lib : Library P O),
      initObjects objs lib =
        { lib with
          log := lib.log ++ (objs.map Prod.snd).map .libInit
          libInitialized := fun o =>
            if o ∈ objs.map Prod.snd then true
            else lib.libInitialized o }
| [], lib => by simp [initObjects]
| (p, o) :: rest, lib => by
    have hRest := initObjects_eq rest
    simp only [initObjects, hRest, List.map_cons,
      List.append_assoc, List.singleton_append]
    congr 1
    funext q
    by_cases hSame : q = o
    · subst hSame
      simp
    · have hBeq : (q == o) = false := by simpa using hSame
      simp [hSame, hBeq]

omit [LinearOrder P] in
theorem exitObjects_eq :
    ∀ (objs : List (P × O)) (lib : Library P O),
      exitObjects objs lib =
        { lib with
          log := lib.log ++ (objs.map Prod.snd).map .libExit
          libInitialized := fun o =>
            if o ∈ objs.map Prod.snd then false
            else lib.libInitialized o }
| [], lib => by simp [exitObjects]
| (p, o) :: rest, lib => by
    have hRest := exitObjects_eq rest
    simp only [exitObjects, hRest, List.map_cons,
      List.append_assoc, List.singleton_append]
    congr 1
    funext q
    by_cases hSame : q = o
    · subst hSame
      simp
    · have hBeq : (q == o) = false := by simpa using hSame
      simp [hSame, hBeq]

omit [LinearOrder P] in
theorem init_of_ne
    {lib : Library P O} (hNe : ¬ lib.initCounter = 0) :
    lib.init =
      { lib with initCounter := lib.initCounter + 1 } := by
  unfold Library.init
  rw [if_neg hNe]

omit [LinearOrder P] in
theorem log_init_of_eq
    {lib : Library P O} (hZero : lib.initCounter = 0) :
    lib.init.log =
      lib.log ++
        (lib.createInitData.map Prod.snd).map .libInit := by
  unfold Library.init createInitData
  rw [if_pos hZero]
  cases lib.initData with
  | none => simp
  | some objs => simp only [initObjects_eq]

omit [LinearOrder P] in
/- Registered objects stay, and every call counts. -/
theorem frame_init (lib : Library P O) :
    lib.init.initCounter = lib.initCounter + 1 ∧
      lib.init.initData = lib.initData := by
  unfold Library.init
  split
  · cases lib.initData with
    | none => exact ⟨rfl, rfl⟩
    | some objs => simp [initObjects_eq]
  · exact ⟨rfl, rfl⟩

/-
  A library with objects of this order, `depth` of whose
  calls of `init` are open.
-/
structure Open
    (order : List O) (depth : Nat)
    (lib : Library P O) : Prop where
  objects : lib.createInitData.map Prod.snd = order
  counter : lib.initCounter = BitVec.ofNat 64 depth
  small : depth < 2 ^ 64
  initialized :
    ∀ o ∈ order,
      lib.libInitialized o = true ↔ 0 < depth

variable {order : List O} {lib : Library P O}

omit [LinearOrder P] [DecidableEq O] in
theorem Open.counter_eq_zero_iff {depth : Nat}
    (hOpen : Open order depth lib) :
    lib.initCounter = 0 ↔ depth = 0 := by
  have hSmall := hOpen.small
  rw [hOpen.counter]
  constructor
  · intro hZero
    have hNat := congrArg BitVec.toNat hZero
    rw [BitVec.toNat_ofNat, Nat.mod_eq_of_lt hSmall] at hNat
    exact hNat
  · rintro rfl
    rfl

omit [LinearOrder P] in
/- The first call initializes everything. -/
theorem Open.init_zero (hOpen : Open order 0 lib) :
    lib.init.log =
        lib.log ++ Round.startup.events order ∧
      Open order 1 lib.init := by
  have hZero := hOpen.counter_eq_zero_iff.mpr rfl
  have hObjects := hOpen.objects
  unfold createInitData at hObjects
  unfold Library.init
  cases hData : lib.initData with
  | none =>
      rw [hData] at hObjects
      subst hObjects
      refine ⟨by simp [hZero, Round.events], ?_⟩
      exact
        { objects := by
            simp [createInitData, hZero]
          counter := by simp [hZero]
          small := by simp
          initialized := by simp }
  | some objs =>
      rw [hData] at hObjects
      simp only at hObjects
      simp only [hZero, if_true, initObjects_eq, hObjects]
      refine ⟨rfl, ?_⟩
      exact
        { objects := by
            simp [createInitData, hObjects]
          counter := by simp
          small := by simp
          initialized := by
            intro o hMem
            simp [hMem] }

omit [LinearOrder P] in
/- Further calls of `init` only count. -/
theorem Open.init_succ {depth : Nat}
    (hOpen : Open order (depth + 1) lib)
    (hSmall : depth + 2 < 2 ^ 64) :
    lib.init.log = lib.log ∧
      Open order (depth + 2) lib.init := by
  have hNe : ¬ lib.initCounter = 0 := by
    rw [hOpen.counter_eq_zero_iff]
    exact Nat.succ_ne_zero depth
  rw [init_of_ne hNe]
  refine ⟨rfl, ?_⟩
  exact
    { objects := hOpen.objects
      counter := by
        simp only [hOpen.counter]
        exact (BitVec.ofNat_add (depth + 1) 1).symm
      small := hSmall
      initialized := by
        intro o hMem
        simpa using hOpen.initialized o hMem }

omit [LinearOrder P] [DecidableEq O] in
theorem Open.counter_sub_one {depth : Nat}
    (hOpen : Open order (depth + 1) lib) :
    lib.initCounter - 1 = BitVec.ofNat 64 depth := by
  have hAdd : lib.initCounter = BitVec.ofNat 64 depth + 1 :=
    hOpen.counter.trans (BitVec.ofNat_add depth 1)
  rw [hAdd, BitVec.add_sub_cancel]

omit [LinearOrder P] in
/- The call that closes the first one shuts down. -/
theorem Open.finish_one (hOpen : Open order 1 lib) :
    lib.finish.log =
        lib.log ++ Round.shutdown.events order ∧
      Open order 0 lib.finish := by
  have hZero : lib.initCounter - 1 = 0 :=
    hOpen.counter_sub_one
  have hObjects := hOpen.objects
  unfold createInitData at hObjects
  unfold Library.finish
  cases hData : lib.initData with
  | none =>
      rw [hData] at hObjects
      subst hObjects
      refine ⟨by simp [Round.events], ?_⟩
      exact
        { objects := by simp [createInitData]
          counter := by simpa using hZero
          small := by simp
          initialized := by simp }
  | some objs =>
      rw [hData] at hObjects
      simp only at hObjects
      simp only [hZero, if_true, exitObjects_eq,
        List.map_reverse, hObjects]
      refine ⟨by simp [Round.events], ?_⟩
      exact
        { objects := by simp [createInitData, hObjects]
          counter := by simp
          small := by simp
          initialized := by
            intro o hMem
            simp [hMem] }

omit [LinearOrder P] in
/- The calls that close further ones only count. -/
theorem Open.finish_succ {depth : Nat}
    (hOpen : Open order (depth + 2) lib) :
    lib.finish.log = lib.log ∧
      Open order (depth + 1) lib.finish := by
  have hCounter := hOpen.counter_sub_one
  have hSmall := hOpen.small
  have hLess : depth + 1 < 2 ^ 64 :=
    Nat.lt_of_succ_lt hSmall
  have hAfter :
      Open order (depth + 1)
        { lib with initCounter := lib.initCounter - 1 } :=
    { objects := hOpen.objects
      counter := hCounter
      small := hLess
      initialized := by
        intro o hMem
        simpa using hOpen.initialized o hMem }
  have hNe : ¬ lib.initCounter - 1 = 0 := by
    intro hZero
    exact
      Nat.succ_ne_zero depth
        (hAfter.counter_eq_zero_iff.mp hZero)
  have hFinish : lib.finish =
      { lib with initCounter := lib.initCounter - 1 } := by
    unfold Library.finish
    rw [if_neg hNe]
  rw [hFinish]
  exact ⟨rfl, hAfter⟩

------------------------------------------------------------
-- Runs
------------------------------------------------------------

/-
  Calls from a state with `depth` open ones stay nested and
  leave fewer than `limit` open.
-/
def Within (limit : Nat) : Nat → List Call → Prop
| _, [] => True
| depth, .init :: calls =>
    depth + 1 < limit ∧ Within limit (depth + 1) calls
| 0, .finish :: _ => False
| depth + 1, .finish :: calls => Within limit depth calls

theorem within_of_prefixes {limit : Nat} :
    ∀ {calls : List Call} {depth : Nat},
      (∀ before, before <+: calls →
        before.count .finish ≤
          depth + before.count .init) →
      (∀ before, before <+: calls →
        depth + before.count .init <
          before.count .finish + limit) →
      Within limit depth calls
| [], _, _, _ => trivial
| .init :: calls, depth, hNested, hBelow => by
    have hFirst := hBelow [.init] ⟨calls, rfl⟩
    refine ⟨by simpa using hFirst, ?_⟩
    apply within_of_prefixes
    · intro before hPrefix
      have hCount :=
        hNested (.init :: before)
          ((List.prefix_cons_inj _).mpr hPrefix)
      simp at hCount
      omega
    · intro before hPrefix
      have hCount :=
        hBelow (.init :: before)
          ((List.prefix_cons_inj _).mpr hPrefix)
      simp at hCount
      omega
| .finish :: calls, 0, hNested, _ => by
    have hFirst := hNested [.finish] ⟨calls, rfl⟩
    simp at hFirst
| .finish :: calls, depth + 1, hNested, hBelow => by
    show Within limit depth calls
    apply within_of_prefixes
    · intro before hPrefix
      have hCount :=
        hNested (.finish :: before)
          ((List.prefix_cons_inj _).mpr hPrefix)
      simp at hCount
      omega
    · intro before hPrefix
      have hCount :=
        hBelow (.finish :: before)
          ((List.prefix_cons_inj _).mpr hPrefix)
      simp at hCount
      omega

omit [LinearOrder P] in
/- A run performs the rounds that its calls mean. -/
theorem Open.run :
    ∀ {calls : List Call} {depth : Nat} {lib : Library P O},
      Open order depth lib →
      Within (2 ^ 64) depth calls →
      (lib.run calls).log =
          lib.log ++
            (rounds depth calls).flatMap
              (Round.events order) ∧
        ∃ depth',
          depth' + calls.count .finish =
              depth + calls.count .init ∧
            Open order depth' (lib.run calls)
| [], depth, lib, hOpen, _ => by
    refine ⟨by simp [Library.run, rounds], depth, rfl, hOpen⟩
| .init :: calls, 0, lib, hOpen, hWithin => by
    rcases hOpen.init_zero with ⟨hLog, hNext⟩
    rcases hNext.run hWithin.2 with
      ⟨hRest, depth', hDepth, hAfter⟩
    refine ⟨?_, depth', ?_, hAfter⟩
    · simp only [Library.run, call, rounds,
        List.flatMap_cons, hRest, hLog, List.append_assoc]
    · simp
      omega
| .init :: calls, depth + 1, lib, hOpen, hWithin => by
    rcases hOpen.init_succ hWithin.1 with ⟨hLog, hNext⟩
    rcases hNext.run hWithin.2 with
      ⟨hRest, depth', hDepth, hAfter⟩
    refine ⟨?_, depth', ?_, hAfter⟩
    · simp only [Library.run, call, rounds, hRest, hLog]
    · simp
      omega
| .finish :: calls, 1, lib, hOpen, hWithin => by
    rcases hOpen.finish_one with ⟨hLog, hNext⟩
    rcases hNext.run hWithin with
      ⟨hRest, depth', hDepth, hAfter⟩
    refine ⟨?_, depth', ?_, hAfter⟩
    · simp only [Library.run, call, rounds,
        List.flatMap_cons, hRest, hLog, List.append_assoc]
    · simp
      omega
| .finish :: calls, depth + 2, lib, hOpen, hWithin => by
    rcases hOpen.finish_succ with ⟨hLog, hNext⟩
    rcases hNext.run hWithin with
      ⟨hRest, depth', hDepth, hAfter⟩
    refine ⟨?_, depth', ?_, hAfter⟩
    · simp only [Library.run, call, rounds, hRest, hLog]
    · simp
      omega

/- While a call stays open, others mean nothing. -/
theorem rounds_eq_nil :
    ∀ {calls : List Call} {depth : Nat},
      (∀ before, before <+: calls →
        before.count .finish ≤
          depth + before.count .init) →
      rounds (depth + 1) calls = []
| [], _, _ => rfl
| .init :: calls, depth, hNested => by
    show rounds (depth + 1 + 1) calls = []
    apply rounds_eq_nil
    intro before hPrefix
    have hCount :=
      hNested (.init :: before)
        ((List.prefix_cons_inj _).mpr hPrefix)
    simp at hCount
    omega
| .finish :: calls, 0, hNested => by
    have hFirst := hNested [.finish] ⟨calls, rfl⟩
    simp at hFirst
| .finish :: calls, depth + 1, hNested => by
    unfold rounds
    apply rounds_eq_nil
    intro before hPrefix
    have hCount :=
      hNested (.finish :: before)
        ((List.prefix_cons_inj _).mpr hPrefix)
    simp at hCount
    omega

/- What a round has for one of its objects. -/
theorem filter_events
    (hNodup : order.Nodup) {o : O} (hMem : o ∈ order)
    (round : Round) :
    (round.events order).filter
        (fun event => event.object = o) =
      [round.event o] := by
  have hOnly : ∀ list : List O, list.Nodup → o ∈ list →
      list.filter (fun p => p = o) = [o] := by
    intro list hList hIn
    have hCount : list.count o = 1 :=
      List.count_eq_one_of_mem hList hIn
    rw [List.filter_eq, hCount]
    rfl
  cases round with
  | startup =>
      have hList := hOnly order hNodup hMem
      simp only [Round.events, List.filter_map]
      exact congrArg (List.map Event.libInit) hList
  | shutdown =>
      have hList :=
        hOnly order.reverse (List.nodup_reverse.mpr hNodup)
          (List.mem_reverse.mpr hMem)
      simp only [Round.events, List.filter_map]
      exact congrArg (List.map Event.libExit) hList

theorem filter_flatMap_events
    (hNodup : order.Nodup) {o : O} (hMem : o ∈ order) :
    ∀ rs : List Round,
      (rs.flatMap (Round.events order)).filter
          (fun event => event.object = o) =
        rs.map (Round.event o)
| [] => rfl
| round :: rs => by
    have hHead := filter_events hNodup hMem round
    have hTail := filter_flatMap_events hNodup hMem rs
    rw [List.flatMap_cons, List.filter_append, hHead, hTail]
    rfl

omit [DecidableEq O] in
/- Rounds take turns. -/
theorem alternates_rounds (o : O) :
    ∀ (calls : List Call) (depth : Nat),
      Alternates (decide (0 < depth))
        ((rounds depth calls).map (Round.event o))
| [], depth => by
    cases depth <;> trivial
| .init :: calls, 0 => alternates_rounds o calls 1
| .init :: calls, depth + 1 =>
    alternates_rounds o calls (depth + 2)
| .finish :: calls, 0 => alternates_rounds o calls 0
| .finish :: calls, 1 => alternates_rounds o calls 0
| .finish :: calls, depth + 2 =>
    alternates_rounds o calls (depth + 1)

------------------------------------------------------------
-- Registered Objects
------------------------------------------------------------

omit [LinearOrder P] [DecidableEq O] in
theorem createInitData_eq (lib : Library P O) :
    lib.createInitData = lib.initData.getD [] := by
  unfold createInitData
  cases lib.initData <;> rfl

omit [DecidableEq O] in
/- Two objects cannot have one priority. -/
theorem registerInitable_conflict
    {lib : Library P O} (prio : P) (o : O)
    (hAscending : KeyMap.Ascending lib.createInitData)
    (hTaken : ∃ q, (prio, q) ∈ lib.createInitData) :
    lib.registerInitable prio o = .error (.exit ⟨9⟩) := by
  have hFails :=
    KeyMap.insert_of_key prio o hAscending hTaken
  unfold registerInitable
  rw [hFails]

omit [DecidableEq O] in
/- Objects of distinct priorities end up in their order. -/
theorem exists_registerAll :
    ∀ {objs : List (P × O)} {lib : Library P O},
      KeyMap.Ascending lib.createInitData →
      (objs.map Prod.fst).Nodup →
      (∀ p ∈ lib.createInitData, ∀ q ∈ objs, p.1 ≠ q.1) →
      ∃ initData,
        registerAll objs lib =
            .ok { lib with initData := initData } ∧
          KeyMap.Ascending (initData.getD []) ∧
          (initData.getD []).Perm
            (objs ++ lib.createInitData)
| [], lib, hAscending, _, _ => by
    rw [createInitData_eq] at hAscending ⊢
    exact
      ⟨lib.initData, rfl, hAscending, List.Perm.refl _⟩
| (prio, o) :: objs, lib, hAscending, hNodup, hNew => by
    rw [List.map_cons, List.nodup_cons] at hNodup
    rcases KeyMap.exists_insert prio o hAscending
        (fun p hMem => hNew p hMem _ List.mem_cons_self) with
      ⟨pairs, hInsert, hSorted, hPerm⟩
    have hNext : ∀ p ∈ pairs, ∀ q ∈ objs, p.1 ≠ q.1 := by
      intro p hMem q hLater hEq
      rcases List.mem_cons.mp (hPerm.mem_iff.mp hMem) with
        hSame | hOld
      · subst hSame
        exact
          hNodup.1 (List.mem_map.mpr ⟨q, hLater, hEq.symm⟩)
      · exact
          hNew p hOld q (List.mem_cons_of_mem _ hLater) hEq
    have hSorted' : KeyMap.Ascending
        ({ lib with initData := some pairs } :
          Library P O).createInitData := hSorted
    rcases exists_registerAll hSorted' hNodup.2 hNext with
      ⟨initData, hAll, hFinal, hFinalPerm⟩
    refine ⟨initData, ?_, hFinal, ?_⟩
    · simp only [registerAll, registerInitable, hInsert, hAll]
    · refine hFinalPerm.trans ?_
      refine (hPerm.append_left objs).trans ?_
      exact List.perm_middle

omit [LinearOrder P] in
theorem run_append :
    ∀ (before after : List Call) (lib : Library P O),
      lib.run (before ++ after) = (lib.run before).run after
| [], _, _ => rfl
| c :: before, after, lib =>
    run_append before after (lib.call c)

omit [LinearOrder P] in
/- A library before its first call does what it should. -/
theorem Open.lifecycle {calls : List Call}
    (hOpen : Open order 0 lib)
    (hFresh : lib.log = [])
    (hNodup : order.Nodup)
    (hNested : Nested calls)
    (hBelow : Below (2 ^ 64) calls) :
    Lifecycle order lib calls := by
  have hWithin : ∀ before, before <+: calls →
      Within (2 ^ 64) 0 before := by
    intro before hBefore
    apply within_of_prefixes
    · intro start hStart
      simpa using hNested start (hStart.trans hBefore)
    · intro start hStart
      simpa using hBelow start (hStart.trans hBefore)
  rcases hOpen.run (hWithin calls (List.prefix_refl _)) with
    ⟨hLog, depth, hDepth, hAfter⟩
  rw [hFresh, List.nil_append] at hLog
  refine
    { initialized := ?_
      alternate := ?_
      rounds := hLog
      inner := ?_ }
  · intro o hMem
    rw [hAfter.initialized o hMem]
    omega
  · intro o hMem
    rw [hLog, filter_flatMap_events hNodup hMem]
    exact alternates_rounds o calls 0
  · rintro before inside rfl hOuter hInside
    have hPrefix : before <+: before ++ inside :=
      List.prefix_append before inside
    rcases hOpen.run (hWithin before hPrefix) with
      ⟨-, outer, hCount, hThere⟩
    rcases Nat.exists_eq_succ_of_ne_zero
        (n := outer) (by omega) with ⟨open', rfl⟩
    have hRest : Within (2 ^ 64) (open' + 1) inside := by
      apply within_of_prefixes
      · intro start hStart
        have hLess := hInside start hStart
        omega
      · intro start hStart
        have hLess :=
          hBelow (before ++ start)
            ((List.prefix_append_right_inj before).mpr
              hStart)
        simp only [List.count_append] at hLess
        omega
    have hNothing : Library.rounds (open' + 1) inside = [] := by
      apply rounds_eq_nil
      intro start hStart
      have hLess := hInside start hStart
      omega
    rw [run_append, (hThere.run hRest).1, hNothing]
    simp

/-
  Static objects of distinct priorities register, in any
  order. Whatever nested calls of `init` and `finish` follow,
  fewer than `2 ^ 64` of them open at a time: the objects are
  initialized while a call is open, in ascending order, and
  shut down in descending order, and in turns.
-/
theorem exists_lifecycle
    (objs : List (P × O))
    (hPriorities : (objs.map Prod.fst).Nodup)
    (hObjects : (objs.map Prod.snd).Nodup) :
    ∃ (lib : Library P O) (ascending : List (P × O)),
      registerAll objs {} = .ok lib ∧
        KeyMap.Ascending ascending ∧
        ascending.Perm objs ∧
        ∀ calls, Nested calls → Below (2 ^ 64) calls →
          Lifecycle (ascending.map Prod.snd) lib calls := by
  have hNone : KeyMap.Ascending
      (createInitData ({} : Library P O)) :=
    List.Pairwise.nil
  rcases exists_registerAll hNone hPriorities
      (by simp [createInitData]) with
    ⟨initData, hAll, hSorted, hPerm⟩
  rw [show createInitData ({} : Library P O) = [] from rfl,
    List.append_nil] at hPerm
  refine ⟨_, initData.getD [], hAll, hSorted, hPerm, ?_⟩
  intro calls hNested hBelow
  have hOpen :
      Open ((initData.getD []).map Prod.snd) 0
        { ({} : Library P O) with initData := initData } := by
    refine
      { objects := ?_
        counter := rfl
        small := by simp
        initialized := by simp }
    rw [createInitData_eq]
  refine hOpen.lifecycle rfl ?_ hNested hBelow
  exact ((hPerm.map Prod.snd).nodup_iff).mpr hObjects

/-
  Two objects that register in descending order, and a call
  of `init` with a pair of calls inside.
-/
theorem exists_lifecycle_two :
    ∃ (lib : Library Nat Bool)
        (ascending : List (Nat × Bool)),
      registerAll [(2, true), (1, false)] {} = .ok lib ∧
        KeyMap.Ascending ascending ∧
        ascending.Perm [(2, true), (1, false)] ∧
        ∀ calls, Nested calls → Below (2 ^ 64) calls →
          Lifecycle (ascending.map Prod.snd) lib calls :=
  exists_lifecycle [(2, true), (1, false)] (by simp) (by simp)

omit [LinearOrder P] in
/-
  With `2 ^ 64 - 1` calls open, the next one lets the counter
  wrap, and the one after it takes itself for the first.
-/
theorem Open.run_wrapped {count : Nat}
    (hOpen : Open order 0 lib)
    (hFresh : lib.log = [])
    (hCount : count + 1 = 2 ^ 64) :
    (lib.run
        (List.replicate count .init ++ [.init, .init])).log =
      order.map .libInit ++ order.map .libInit := by
  have hNoFinish : ∀ before,
      before <+: List.replicate count Call.init →
      before.count .finish = 0 ∧
        before.count .init ≤ count := by
    intro before hBefore
    have hFinish := hBefore.sublist.count_le .finish
    have hInit := hBefore.sublist.count_le .init
    simp [List.count_replicate] at hFinish hInit
    exact ⟨hFinish, hInit⟩
  have hWithin : Within (2 ^ 64) 0
      (List.replicate count .init) := by
    apply within_of_prefixes
    · intro before hBefore
      rw [(hNoFinish before hBefore).1]
      exact Nat.zero_le _
    · intro before hBefore
      have hFew := (hNoFinish before hBefore).2
      omega
  have hRounds :
      rounds 0 (List.replicate count .init) =
        [.startup] := by
    cases count with
    | zero => simp at hCount
    | succ n =>
        rw [List.replicate_succ]
        unfold rounds
        rw [rounds_eq_nil]
        intro before hBefore
        have hFinish := hBefore.sublist.count_le .finish
        simp [List.count_replicate] at hFinish
        rw [hFinish]
        exact Nat.zero_le _
  rcases hOpen.run hWithin with ⟨hLog, depth, hDepth, hFull⟩
  have hDepth' : depth = count := by
    simpa [List.count_replicate] using hDepth
  subst hDepth'
  rw [hFresh, hRounds] at hLog
  rw [run_append]
  have hNe : ¬ (lib.run
      (List.replicate depth .init)).initCounter = 0 := by
    rw [hFull.counter_eq_zero_iff]
    omega
  have hWrap : (lib.run
      (List.replicate depth .init)).initCounter + 1 = 0 := by
    rw [hFull.counter]
    refine (BitVec.ofNat_add depth 1).symm.trans ?_
    rw [hCount]
    rfl
  unfold Library.run call
  rw [init_of_ne hNe]
  unfold Library.run call
  rw [Library.run, log_init_of_eq hWrap]
  exact
    congrArg₂ (· ++ List.map Event.libInit ·)
      (hLog.trans (by simp [Round.events])) hFull.objects

theorem nested_of_inits (count : Nat) :
    Nested (List.replicate count .init ++ [.init, .init]) := by
  intro before hBefore
  have hFinish := hBefore.sublist.count_le .finish
  simp [List.count_replicate] at hFinish
  rw [hFinish]
  exact Nat.zero_le _

/- One object, and more calls than the counter can count. -/
theorem not_lifecycle_wrapped
    {count : Nat} (hCount : count + 1 = 2 ^ 64) :
    ¬ Lifecycle [()]
        { initData := some [(0, ())] : Library Nat Unit }
        (List.replicate count .init ++ [.init, .init]) := by
  intro hLifecycle
  have hOpen : Open [()] 0
      { initData := some [(0, ())] : Library Nat Unit } :=
    { objects := rfl
      counter := rfl
      small := by simp
      initialized := by simp }
  have hTurns := hLifecycle.alternate () (by simp)
  rw [hOpen.run_wrapped rfl hCount] at hTurns
  simp [Alternates, Event.object] at hTurns

/-
  With one call of `init` more than the counter can count,
  the object is initialized twice in a row.
-/
theorem init_counter_wraps :
    ∃ lib : Library Nat Unit,
      registerAll [(0, ())] {} = .ok lib ∧
        Nested
          (List.replicate (2 ^ 64 - 1) .init ++
            [.init, .init]) ∧
        ¬ Lifecycle [()] lib
          (List.replicate (2 ^ 64 - 1) .init ++
            [.init, .init]) :=
  ⟨{ initData := some [(0, ())] }, rfl,
    nested_of_inits _,
    not_lifecycle_wrapped
      (Nat.sub_add_cancel Nat.one_le_two_pow)⟩

end Library

end Cosmos
