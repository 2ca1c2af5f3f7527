import LibCosmos.FS.Ownership
import LibCosmos.Net.SocketMessages

/-
  The socket objects of a process: client sockets that
  become connections, listening sockets that accept them,
  and datagram sockets (`include/net/Socket.hxx`,
  `src/net/Socket.cxx` and the classes derived from it).

  All of them are `FDFile`s. Which socket a descriptor
  stands for is what the kernel has: one that was connected
  by a call that returned, one that listens, or neither. A
  `connect` that does not block can fail and still go on, so
  that the socket of a client comes to a connection later.

  Main declarations:
    * `Sockets.Sock`, `Sockets.Op`, `Sockets.World.step`
    * `Sockets.Op.Legal`, `Sockets.Op.Faulty`
    * `Sockets.Role.Fits`, `Sockets.Typed`
    * `Sockets.sockets_conserved`
-/

namespace Cosmos

namespace Sockets

open Custody

------------------------------------------------------------
-- Socket Classes
------------------------------------------------------------

/- What the class of a socket object is for. -/
inductive Role where
| client
| listener
| connection
| dgram
deriving DecidableEq, Repr

/- The address families of the socket classes. -/
inductive Family where
| unix
| inet
| inet6
deriving DecidableEq, Repr

structure Sock where
  role : Role
  family : Family
  file : FDFile := {}
deriving DecidableEq, Repr

namespace Sock

def owned (s : Sock) : List FileNum := s.file.owned

/- A moved from object of the same class. -/
def blank (s : Sock) : Sock := { s with file := {} }

def SameClass (a b : Sock) : Prop :=
  a.role = b.role ∧ a.family = b.family

end Sock

/-
  A socket of the kernel. It is connected once a call has
  returned with its connection; whether the peer is still
  there is another matter. An attempt that goes on behind a
  failed `connect` can have come to a connection that no call
  has reported yet.
-/
inductive Endpoint where
| unconnected
| attempting
| established
| listening
| connected
deriving DecidableEq, Repr

/-
  What a socket of a class can own. A client has attempts
  that go on only where some `connect` left one behind.
-/
def Role.Fits (attempts : Prop) : Role → Endpoint → Prop
| .client, e =>
    e = .unconnected ∨
      attempts ∧ (e = .attempting ∨ e = .established)
| .listener, e => e = .unconnected ∨ e = .listening
| .connection, e => e = .connected
| .dgram, e => e = .unconnected ∨ e = .connected

/- The errors of a `connect` whose attempt goes on. -/
def GoesOn (e : Errno) : Prop :=
  e = .inProgress ∨ e = .already ∨ e = .interrupted

/- What a `connect` that failed can leave of a socket. -/
def Leaves (e : Errno) (before after : Endpoint) : Prop :=
  after = before ∨ after = .unconnected ∨
    GoesOn e ∧ after = .attempting

/- How an attempt that goes on comes to its end. -/
def Endpoint.Settles (before after : Endpoint) : Prop :=
  before = .attempting ∧
    (after = .established ∨ after = .unconnected)

------------------------------------------------------------
-- Member Functions
------------------------------------------------------------

/- `Socket::Socket` with a family and a type. -/
def openSocket (answer : Sys FileNum) :
    Method (Frame FDFile) Unit := do
  let fd ← acquire "socket()" answer
  Frame.assign fun f => { f with mFd := ⟨fd⟩ }

def badType : Exn :=
  .runtimeError
    (str "invalid socket type for unix connection mode socket")

/-
  The constructors of the classes. The ones for UNIX
  connections check the type only after their base is
  there, which is destroyed on the exception.
-/
def construct
    (checked fits : Bool) (answer : Sys FileNum)
    (closed : Sys Unit) :
    Method (Frame FDFile) Unit := do
  openSocket answer
  if checked && !fits then do
    FDFile.destroy closed
    Command.raise badType
  else pure ()

/- `connect` of the classes for connections. -/
def connect (answer : Sys Unit) :
    Method (Frame FDFile) FDFile := do
  check "connect()" answer
  let f ← Frame.self
  -- the connection closes the descriptor in any case
  let ret : FDFile := { mFd := f.mFd, mAutoClose := true }
  Frame.assign fun f => { f with mFd := f.mFd.reset }
  pure ret

/- `Socket::accept`, with the length of the address. -/
def accept
    (answer : Sys FileNum)
    (addr : Option (SocketAddress × UInt32)) :
    Method (Frame FDFile) FDFile := do
  let fd ← acquire "accept()" answer
  match addr with
  | some (addr, addrlen) => addr.update addrlen
  | none => pure ()
  pure { mFd := ⟨fd⟩, mAutoClose := true }

------------------------------------------------------------
-- The World and Its Operations
------------------------------------------------------------

/- The objects, the log of descriptors and the kernel. -/
structure World (ι : Type) where
  objs : ι → Option Sock
  log : List (Entry FileNum)
  kernel : FileNum → Endpoint

def World.owned {ι : Type} (w : World ι) :
    ι → List FileNum :=
  Places.held Sock.owned w.objs

/- A member function or what else happens. -/
inductive Op (ι : Type) where
| construct (h : ι) (role : Role) (family : Family)
    (fits : Bool) (answer : Sys FileNum)
    (closed : Sys Unit)
| adopt (h : ι) (role : Role) (family : Family)
    (fd : FileDescriptor) (autoClose : Bool)
| pair (h k : ι) (role : Role)
    (answer : Sys (FileNum × FileNum))
| listen (h : ι) (answer : Sys Unit)
/- `left` is what a `connect` that fails leaves. -/
| connect (h k : ι) (answer : Sys Unit) (left : Endpoint)
| connectDgram (h : ι) (answer : Sys Unit)
| accept (h k : ι) (answer : Sys FileNum)
    (addr : Option (SocketAddress × UInt32))
| close (h : ι) (closed : Sys Unit)
| takeOwnership (h : ι)
| releaseOwnership (h : ι)
| moveConstruct (h k : ι)
| moveAssign (h k : ι)
| destroy (h : ι) (closed : Sys Unit)
/- The kernel is done with an attempt to connect. -/
| settle (fd : FileNum) (endpoint : Endpoint)
/- What the caller does with descriptors of its own. -/
| outside (fd : FileNum) (endpoint : Endpoint)

section Worlds

variable {ι : Type} [DecidableEq ι]

/- An object in place of another one, with a new log. -/
def World.put
    (w : World ι) (h : ι) (obj : Option Sock)
    (log : List (Entry FileNum)) : World ι :=
  { w with objs := Function.update w.objs h obj, log := log }

/- A descriptor that stands for something else now. -/
def World.turn
    (w : World ι) (fd : FileNum) (e : Endpoint) : World ι :=
  { w with kernel := Function.update w.kernel fd e }

/- What a member function leaves of its object. -/
def World.call {α : Type}
    (w : World ι) (h : ι) (s : Sock)
    (m : Method (Frame FDFile) α) : World ι :=
  w.put h
    (some { s with file := (m.run ⟨s.file, w.log⟩).2.this })
    (m.run ⟨s.file, w.log⟩).2.log

/- A move to `h`, which may be `k`, as by `FDFile`. -/
def World.move (w : World ι) (h k : ι) (a b : Sock) :
    World ι :=
  { w with
    objs :=
      Function.update
        (Function.update w.objs h
          (some { a with file := b.file }))
        k (some b.blank) }

/- A call of the kernel that changes what a socket is. -/
def World.tell
    (w : World ι) (s : Sock) (answer : Sys Unit)
    (e : Endpoint) : World ι :=
  match answer with
  | .ok () => w.turn s.file.mFd.mFd e
  | .error _ => w

def World.step (w : World ι) : Op ι → World ι
| .construct h role family fits answer closed =>
    let checked := family = .unix ∧ role ≠ .dgram
    match
      (construct checked fits answer closed).run ⟨{}, w.log⟩
    with
    | (.returned (), s) =>
        (w.put h (some ⟨role, family, s.this⟩) s.log).turn
          s.this.mFd.mFd .unconnected
    | (_, s) => w.put h none s.log
| .adopt h role family fd autoClose =>
    w.call h ⟨role, family, {}⟩ (FDFile.openFd fd autoClose)
| .pair h k role answer =>
    match answer with
    | .ok (fd, fd') =>
        (((w.put h (some ⟨role, .unix, ⟨⟨fd⟩, true⟩⟩)
                (.acquired fd :: w.log)).put k
              (some ⟨role, .unix, ⟨⟨fd'⟩, true⟩⟩)
              (.acquired fd' :: .acquired fd :: w.log)).turn
            fd .connected).turn
          fd' .connected
    | .error _ => w
| .listen h answer =>
    match w.objs h with
    | some s => w.tell s answer .listening
    | none => w
| .connect h k answer left =>
    match w.objs h with
    | some s =>
        match (connect answer).run ⟨s.file, w.log⟩ with
        | (.returned ret, t) =>
            ((w.put k
                  (some ⟨.connection, s.family, ret⟩)
                  t.log).put
                h (some { s with file := t.this })
                t.log).turn
              ret.mFd.mFd .connected
        | (_, t) =>
            (w.put h (some { s with file := t.this })
                t.log).turn
              s.file.mFd.mFd left
    | none => w
| .connectDgram h answer =>
    match w.objs h with
    | some s => w.tell s answer .connected
    | none => w
| .accept h k answer addr =>
    match w.objs h with
    | some s =>
        match (accept answer addr).run ⟨s.file, w.log⟩ with
        | (.returned ret, t) =>
            (w.put k (some ⟨.connection, s.family, ret⟩)
                t.log).turn
              ret.mFd.mFd .connected
        | (_, t) => { w with log := t.log }
    | none => w
| .close h closed =>
    match w.objs h with
    | some s => w.call h s (FDFile.close closed)
    | none => w
| .takeOwnership h =>
    match w.objs h with
    | some s => w.call h s FDFile.takeOwnership
    | none => w
| .releaseOwnership h =>
    match w.objs h with
    | some s => w.call h s FDFile.releaseOwnership
    | none => w
| .moveConstruct h k =>
    match w.objs k with
    | some b => w.move h k b.blank b
    | none => w
| .moveAssign h k =>
    match w.objs h, w.objs k with
    | some a, some b => w.move h k a b
    | _, _ => w
| .destroy h closed =>
    match w.objs h with
    | some s =>
        w.put h none
          ((FDFile.destroy closed).run ⟨s.file, w.log⟩).2.log
    | none => w
| .settle fd endpoint => w.turn fd endpoint
| .outside fd endpoint => w.turn fd endpoint

/- The objects as what they are besides sockets. -/
def files (objs : ι → Option Sock) (h : ι) :
    Option Ownership.Owner :=
  (objs h).map fun s => .file s.file

/- Sockets move as the files that they are. -/
theorem files_move
    {w : World ι} {h k : ι} {a b : Sock}
    (hSelf : w.objs h = some a)
    (hOther : w.objs k = some b) :
    files (w.move h k a b).objs =
      Ownership.moveAssign h k (files w.objs) := by
  have hMove :=
    @Ownership.moveAssign_eq ι _ h k (.file a.file)
      (.file b.file) (files w.objs) (by simp [files, hSelf])
      (by simp [files, hOther]) trivial
  rw [hMove]
  funext l
  by_cases hk : l = k
  · subst hk
    simp [files, World.move, Sock.blank,
      Ownership.Owner.blank]
  · by_cases hh : l = h
    · subst hh
      simp [files, World.move, hk]
    · simp [files, World.move, hk, hh]

/- A process without sockets. -/
def start (kernel : FileNum → Endpoint) : World ι where
  objs _ := none
  log := []
  kernel := kernel

------------------------------------------------------------
-- Legal and Faulty Operations
------------------------------------------------------------

/- No object owns the descriptor. -/
def World.Unowned (w : World ι) (fd : FileNum) : Prop :=
  ∀ k, fd ∉ w.owned k

/- No other object owns the descriptor. -/
def World.Free (w : World ι) (h : ι) (fd : FileNum) :
    Prop :=
  ∀ k, k ≠ h → fd ∉ w.owned k

/-
  Operations make sense on objects of the right class. The
  kernel does not return the number of a descriptor that is
  owned, and the caller does not pass one to a second owner
  or one of another kind, or work on it in an object that is
  not its owner.
-/
def Op.Legal (w : World ι) : Op ι → Prop
| .construct h role _ _ answer _ =>
    w.objs h = none ∧ role ≠ .connection ∧
      ∀ fd, answer = .ok fd →
        fd ≠ FileNum.invalid ∧ w.Unowned fd
| .adopt h role _ fd autoClose =>
    w.objs h = none ∧ (role = .connection ∨ role = .dgram) ∧
      (autoClose = true → fd.valid = true →
        w.Unowned fd.mFd ∧
          role.Fits False (w.kernel fd.mFd))
| .pair h k role answer =>
    h ≠ k ∧ w.objs h = none ∧ w.objs k = none ∧
      (role = .connection ∨ role = .dgram) ∧
      ∀ ends, answer = .ok ends →
        ends.1 ≠ FileNum.invalid ∧ w.Unowned ends.1 ∧
          ends.2 ≠ FileNum.invalid ∧ w.Unowned ends.2 ∧
            ends.1 ≠ ends.2
| .listen h answer =>
    ∃ s, w.objs h = some s ∧ s.role = .listener ∧
      (answer = .ok () → w.Free h s.file.mFd.mFd)
| .connect h k answer left =>
    ∃ s, w.objs h = some s ∧ s.role = .client ∧
      w.objs k = none ∧ w.Free h s.file.mFd.mFd ∧
      ∀ e, answer = .error e →
        Leaves e (w.kernel s.file.mFd.mFd) left
| .connectDgram h answer =>
    ∃ s, w.objs h = some s ∧ s.role = .dgram ∧
      (answer = .ok () → w.Free h s.file.mFd.mFd)
| .accept h k answer _ =>
    ∃ s, w.objs h = some s ∧ s.role = .listener ∧
      w.objs k = none ∧
      ∀ fd, answer = .ok fd →
        fd ≠ FileNum.invalid ∧ w.Unowned fd
| .close h _ => ∃ s, w.objs h = some s
| .takeOwnership h => ∃ s, w.objs h = some s
| .releaseOwnership h => ∃ s, w.objs h = some s
| .moveConstruct h k =>
    w.objs h = none ∧ ∃ b, w.objs k = some b
| .moveAssign h k =>
    ∃ a b, w.objs h = some a ∧ w.objs k = some b ∧
      a.SameClass b
| .destroy h _ => ∃ s, w.objs h = some s
| .settle fd endpoint => (w.kernel fd).Settles endpoint
| .outside fd _ => w.Unowned fd

/- A `connect` that fails while its attempt goes on. -/
def Op.LeavesAttempt : Op ι → Prop
| .connect _ _ (.error e) _ => GoesOn e
| _ => False

/-
  The operations that lose track: connecting an object that
  gave up its descriptor, as the connection owns it again;
  accepting with an address that cannot be updated, as then
  nobody has the new descriptor; and moving onto an object
  that owns one.
-/
def Op.Faulty (w : World ι) : Op ι → Prop
| .connect h _ answer _ =>
    answer = .ok () ∧
      ∃ s, w.objs h = some s ∧ s.file.mFd.valid = true ∧
        s.file.mAutoClose = false
| .accept _ _ (.ok _) (some (addr, addrlen)) =>
    ¬ addr.Accepts addrlen
| .moveAssign h _ => w.owned h ≠ []
| _ => False

/-
  Every socket that an object owns is one of its kind: what
  a connection object owns is connected.
-/
def Typed (attempts : Prop) (w : World ι) : Prop :=
  ∀ h s, w.objs h = some s →
    ∀ fd ∈ s.owned, s.role.Fits attempts (w.kernel fd)

------------------------------------------------------------
-- What the Member Functions Leave
------------------------------------------------------------

theorem owned_single
    {fd : FileNum} (hValid : fd ≠ FileNum.invalid) :
    FDFile.owned ⟨⟨fd⟩, true⟩ = [fd] := by
  simp [FDFile.owned, FileDescriptor.owned_of_ne hValid]

/- A constructor makes an object or leaves nothing. -/
theorem run_construct
    (checked fits : Bool) {answer : Sys FileNum}
    (closed : Sys Unit) (log : List (Entry FileNum))
    (hValid : ∀ fd, answer = .ok fd → fd ≠ FileNum.invalid) :
    (∃ fd, answer = .ok fd ∧
      (construct checked fits answer closed).run ⟨{}, log⟩ =
        (.returned (), ⟨⟨⟨fd⟩, true⟩, .acquired fd :: log⟩)) ∨
    ∃ ex f log',
      (construct checked fits answer closed).run ⟨{}, log⟩ =
        (.raised ex, ⟨f, log'⟩) ∧
      ∀ free : FileNum → Prop,
        (∀ fd, answer = .ok fd → free fd) →
          Trade free [] log [] log' := by
  cases answer with
  | error e => exact Or.inr ⟨_, _, _, rfl, fun _ _ => .refl⟩
  | ok fd =>
      by_cases hThrows : (checked && !fits) = true
      · right
        rcases
            FDFile.run_destroy closed
              (⟨⟨⟨fd⟩, true⟩, .acquired fd :: log⟩ :
                Frame FDFile) with
          ⟨f, log', hDestroy, -, hLog⟩
        refine ⟨badType, f, log', ?_, ?_⟩
        · simp only [construct, openSocket,
            Command.run_bind, run_acquire_ok,
            Frame.run_assign, hThrows, if_true]
          rw [hDestroy]
          rfl
        · intro free hFree
          rw [hLog, owned_single (hValid fd rfl)]
          have hOpen :
              Trade free [] log [fd]
                (.acquired fd :: log) :=
            .acquire .refl (hFree fd rfl)
              List.not_mem_nil (.refl _)
          exact hOpen.trans (.settle .closed .refl (.refl _))
      · left
        refine ⟨fd, rfl, ?_⟩
        simp only [construct, openSocket, Command.run_bind,
          run_acquire_ok, Frame.run_assign, hThrows]
        rfl

theorem run_connect_ok (s : Frame FDFile) :
    (connect (.ok ())).run s =
      (.returned ⟨s.this.mFd, true⟩,
        { s with this := { s.this with mFd := {} } }) :=
  rfl

theorem run_connect_error (e : Errno) (s : Frame FDFile) :
    (connect (.error e)).run s =
      (.raised (.apiError e (str "connect()")), s) :=
  rfl

/- The address is good, if one was asked for. -/
def Updates :
    Option (SocketAddress × UInt32) → Prop
| some (addr, addrlen) => addr.Accepts addrlen
| none => True

theorem run_accept_ok
    (fd : FileNum)
    {addr : Option (SocketAddress × UInt32)}
    (hUpdates : Updates addr) (s : Frame FDFile) :
    (accept (.ok fd) addr).run s =
      (.returned ⟨⟨fd⟩, true⟩,
        { s with log := .acquired fd :: s.log }) := by
  cases addr with
  | none => rfl
  | some addr =>
      simp only [accept, Command.run_bind, run_acquire_ok,
        ReceiveMessageHeader.run_update_accepts hUpdates]
      rfl

theorem run_accept_refused
    (fd : FileNum)
    {addr : Option (SocketAddress × UInt32)}
    (hUpdates : ¬ Updates addr) (s : Frame FDFile) :
    ∃ ex,
      (accept (.ok fd) addr).run s =
        (.raised ex,
          { s with log := .acquired fd :: s.log }) := by
  cases addr with
  | none => exact absurd trivial hUpdates
  | some addr =>
      rcases
          ReceiveMessageHeader.run_update_refuses hUpdates
            { s with log := .acquired fd :: s.log } with
        ⟨ex, hRun⟩
      refine ⟨ex, ?_⟩
      simp only [accept, Command.run_bind, run_acquire_ok,
        hRun]

------------------------------------------------------------
-- Sound Steps
------------------------------------------------------------

theorem owned_put
    (w : World ι) (h : ι) (obj : Option Sock)
    (log : List (Entry FileNum)) :
    (w.put h obj log).owned =
      Function.update w.owned h
        (Places.heldBy Sock.owned obj) :=
  Places.held_update Sock.owned w.objs h obj

omit [DecidableEq ι] in
theorem owned_of_objs
    {w : World ι} {h : ι} {s : Sock}
    (hObj : w.objs h = some s) :
    w.owned h = s.owned := by
  unfold World.owned Places.held
  rw [hObj]
  rfl

omit [DecidableEq ι] in
theorem owned_of_none
    {w : World ι} {h : ι} (hNone : w.objs h = none) :
    w.owned h = [] := by
  unfold World.owned Places.held
  rw [hNone]
  rfl

/- One object trades. -/
theorem sound_put
    {w : World ι} {h : ι} {obj : Option Sock}
    {log : List (Entry FileNum)}
    (hSound : Sound w.owned w.log)
    (hTrade :
      Trade (w.Free h) (w.owned h) w.log
        (Places.heldBy Sock.owned obj) log) :
    Sound (w.put h obj log).owned log :=
  Places.sound_of_trade hSound hTrade fun _ hFree => hFree

/- A member function that is a trade of its object. -/
theorem sound_call
    {α : Type} {w : World ι} {h : ι} {s : Sock}
    {m : Method (Frame FDFile) α}
    (hSound : Sound w.owned w.log)
    (hTrade :
      Trade (w.Free h) (w.owned h) w.log
        (m.run ⟨s.file, w.log⟩).2.this.owned
        (m.run ⟨s.file, w.log⟩).2.log) :
    Sound (w.call h s m).owned (w.call h s m).log :=
  sound_put hSound hTrade

omit [DecidableEq ι] in
theorem free_of_unowned
    {w : World ι} {fd : FileNum} (hUnowned : w.Unowned fd)
    (h : ι) :
    w.Free h fd :=
  fun k _ => hUnowned k

omit [DecidableEq ι] in
/- A new descriptor for an object that had none. -/
theorem trade_new
    {w : World ι} {h : ι} {fd : FileNum}
    (hNone : w.owned h = []) (hUnowned : w.Unowned fd) :
    Trade (w.Free h) (w.owned h) w.log [fd]
      (.acquired fd :: w.log) := by
  rw [hNone]
  exact
    .acquire .refl (free_of_unowned hUnowned h)
      List.not_mem_nil (.refl _)

theorem sound_construct
    {w : World ι} {h : ι} {role : Role} {family : Family}
    {fits : Bool} {answer : Sys FileNum} {closed : Sys Unit}
    (hSound : Sound w.owned w.log)
    (hLegal :
      (Op.construct h role family fits answer closed).Legal
        w) :
    Sound
      (w.step
        (.construct h role family fits answer closed)).owned
      (w.step
        (.construct h role family fits answer closed)).log := by
  rcases hLegal with ⟨hNone, -, hAnswer⟩
  have hEmpty := owned_of_none hNone
  have hRun :=
    run_construct
      (decide (family = .unix ∧ role ≠ .dgram)) fits closed
      w.log fun fd hFd => (hAnswer fd hFd).1
  rcases hRun with
    ⟨fd, rfl, hRun⟩ | ⟨ex, f, log, hRun, hTrade⟩
  · rcases hAnswer fd rfl with ⟨hValid, hUnowned⟩
    simp only [World.step, hRun]
    refine sound_put hSound ?_
    have hOwned :
        Places.heldBy Sock.owned
            (some ⟨role, family, ⟨⟨fd⟩, true⟩⟩) = [fd] :=
      owned_single hValid
    rw [hOwned]
    exact trade_new hEmpty hUnowned
  · simp only [World.step, hRun]
    refine sound_put hSound ?_
    rw [hEmpty]
    exact
      hTrade (w.Free h) fun fd hFd =>
        free_of_unowned (hAnswer fd hFd).2 h

theorem sound_pair
    {w : World ι} {h k : ι} {role : Role}
    {answer : Sys (FileNum × FileNum)}
    (hSound : Sound w.owned w.log)
    (hLegal : (Op.pair h k role answer).Legal w) :
    Sound (w.step (.pair h k role answer)).owned
      (w.step (.pair h k role answer)).log := by
  rcases hLegal with ⟨hNe, hFirst, hSecond, -, hAnswer⟩
  cases answer with
  | error e => exact hSound
  | ok ends =>
      rcases ends with ⟨fd, fd'⟩
      rcases hAnswer (fd, fd') rfl with
        ⟨hValid, hUnowned, hValid', hUnowned', hOther⟩
      have hOwned (n : FileNum) (hn : n ≠ .invalid) :
          Places.heldBy Sock.owned
              (some ⟨role, .unix, ⟨⟨n⟩, true⟩⟩) = [n] :=
        owned_single hn
      have hOne :
          Sound
            (w.put h (some ⟨role, .unix, ⟨⟨fd⟩, true⟩⟩)
              (.acquired fd :: w.log)).owned
            (.acquired fd :: w.log) := by
        refine sound_put hSound ?_
        rw [hOwned fd hValid]
        exact trade_new (owned_of_none hFirst) hUnowned
      refine sound_put hOne ?_
      rw [hOwned fd' hValid']
      refine trade_new ?_ ?_
      · rw [owned_put, Function.update_of_ne hNe.symm]
        exact owned_of_none hSecond
      · intro l
        rw [owned_put, hOwned fd hValid]
        by_cases hl : l = h
        · subst hl
          rw [Function.update_self, List.mem_singleton]
          exact hOther.symm
        · rw [Function.update_of_ne hl]
          exact hUnowned' l

/- A `connect` that fails leaves its object as it is. -/
theorem step_connect_error
    {w : World ι} {h : ι} {s : Sock}
    (hObj : w.objs h = some s) (k : ι) (e : Errno)
    (left : Endpoint) :
    w.step (.connect h k (.error e) left) =
      w.turn s.file.mFd.mFd left := by
  simp only [World.step, hObj, run_connect_error]
  unfold World.put
  rw [← hObj, Function.update_eq_self]

/- A client hands its descriptor to the connection. -/
theorem sound_connect
    {w : World ι} {h k : ι} {s : Sock} (left : Endpoint)
    (hSound : Sound w.owned w.log)
    (hObj : w.objs h = some s)
    (hNone : w.objs k = none)
    (hOwner :
      s.file.mFd.valid = true → s.file.mAutoClose = true) :
    Sound (w.step (.connect h k (.ok ()) left)).owned
      (w.step (.connect h k (.ok ()) left)).log := by
  simp only [World.step, hObj, run_connect_ok]
  refine
    Places.sound_of_move hSound ?_ ?_ (owned_of_none hNone)
  · have hHeld :
        Places.held Sock.owned w.objs h = s.owned :=
      owned_of_objs hObj
    rw [hHeld]
    simp only [Places.heldBy, Sock.owned, FDFile.owned,
      if_true]
    by_cases hValid : s.file.mFd.valid = true
    · rw [if_pos (hOwner hValid)]
    · simp [FileDescriptor.owned, hValid]
  · simp [Places.heldBy, Sock.owned, FDFile.owned,
      FileDescriptor.owned, FileDescriptor.valid]

theorem sound_adopt
    {w : World ι} {h : ι} {role : Role} {family : Family}
    {fd : FileDescriptor} {autoClose : Bool}
    (hSound : Sound w.owned w.log)
    (hLegal : (Op.adopt h role family fd autoClose).Legal w) :
    Sound (w.step (.adopt h role family fd autoClose)).owned
      (w.step (.adopt h role family fd autoClose)).log := by
  rcases hLegal with ⟨hNone, -, hFd⟩
  refine sound_call hSound ?_
  rw [owned_of_none hNone]
  exact
    @FDFile.trade_openFd (w.Free h) fd autoClose ⟨{}, w.log⟩
      (fun hAuto hValid =>
        free_of_unowned (hFd hAuto hValid).1 h)
      (Or.inl rfl)

/- A descriptor that was accepted and its address as well. -/
theorem sound_accept
    {w : World ι} {h k : ι} {answer : Sys FileNum}
    {addr : Option (SocketAddress × UInt32)}
    (hSound : Sound w.owned w.log)
    (hLegal : (Op.accept h k answer addr).Legal w)
    (hGood : ¬ (Op.accept h k answer addr).Faulty w) :
    Sound (w.step (.accept h k answer addr)).owned
      (w.step (.accept h k answer addr)).log := by
  rcases hLegal with ⟨s, hObj, -, hNone, hAnswer⟩
  simp only [World.step, hObj]
  cases answer with
  | error e => exact hSound
  | ok fd =>
      rcases hAnswer fd rfl with ⟨hValid, hUnowned⟩
      have hUpdates : Updates addr := by
        cases addr with
        | none => trivial
        | some addr => exact Classical.not_not.mp hGood
      rw [run_accept_ok fd hUpdates]
      refine sound_put hSound ?_
      have hOwned :
          Places.heldBy Sock.owned
              (some ⟨.connection, s.family, ⟨⟨fd⟩, true⟩⟩) =
            [fd] :=
        owned_single hValid
      rw [hOwned]
      exact trade_new (owned_of_none hNone) hUnowned

theorem sound_close
    {w : World ι} {h : ι} {s : Sock}
    (hSound : Sound w.owned w.log)
    (hObj : w.objs h = some s) (closed : Sys Unit) :
    Sound (w.step (.close h closed)).owned
      (w.step (.close h closed)).log := by
  simp only [World.step, hObj]
  refine sound_call hSound ?_
  rw [owned_of_objs hObj]
  have hClose :=
    FDFile.trade_close (w.Free h) closed ⟨s.file, w.log⟩
  rw [FDFile.run_close] at hClose ⊢
  exact hClose

/- A destructor closes what its object owns. -/
theorem sound_destroy
    {w : World ι} {h : ι} {s : Sock}
    (hSound : Sound w.owned w.log)
    (hObj : w.objs h = some s) (closed : Sys Unit) :
    Sound (w.step (.destroy h closed)).owned
      (w.step (.destroy h closed)).log := by
  simp only [World.step, hObj]
  refine sound_put hSound ?_
  rw [owned_of_objs hObj]
  rcases FDFile.run_destroy closed ⟨s.file, w.log⟩ with
    ⟨f, log, hRun, -, hLog⟩
  rw [hRun, hLog]
  have hClosed :=
    Trade.settleAll (w.Free h) .closed [] s.owned w.log
  rw [List.append_nil] at hClosed
  exact hClosed

theorem sound_move
    {w : World ι} {h k : ι} {a b : Sock}
    (hSound : Sound w.owned w.log)
    (hOther : w.objs k = some b)
    (hNothing : w.owned h = []) :
    Sound (w.move h k a b).owned w.log :=
  Places.sound_of_move hSound (owned_of_objs hOther).symm
    rfl hNothing

/- A step that is not faulty keeps the books sound. -/
theorem sound_step
    {w : World ι} {op : Op ι}
    (hSound : Sound w.owned w.log)
    (hLegal : op.Legal w)
    (hGood : ¬ op.Faulty w) :
    Sound (w.step op).owned (w.step op).log := by
  cases op with
  | construct h role family fits answer closed =>
      exact sound_construct hSound hLegal
  | adopt h role family fd autoClose =>
      exact sound_adopt hSound hLegal
  | pair h k role answer => exact sound_pair hSound hLegal
  | listen h answer =>
      rcases hLegal with ⟨s, hObj, -⟩
      simp only [World.step, hObj, World.tell]
      cases answer <;> exact hSound
  | connect h k answer left =>
      rcases hLegal with ⟨s, hObj, -, hNone, -⟩
      cases answer with
      | error e =>
          rw [step_connect_error hObj]
          exact hSound
      | ok =>
          refine sound_connect left hSound hObj hNone ?_
          intro hValid
          by_contra hBorrowed
          exact
            hGood
              ⟨rfl, s, hObj, hValid, by simpa using hBorrowed⟩
  | connectDgram h answer =>
      rcases hLegal with ⟨s, hObj, -⟩
      simp only [World.step, hObj, World.tell]
      cases answer <;> exact hSound
  | accept h k answer addr =>
      exact sound_accept hSound hLegal hGood
  | close h closed =>
      rcases hLegal with ⟨s, hObj⟩
      exact sound_close hSound hObj closed
  | takeOwnership h =>
      rcases hLegal with ⟨s, hObj⟩
      simp only [World.step, hObj]
      refine sound_call hSound ?_
      rw [owned_of_objs hObj]
      exact FDFile.trade_takeOwnership ⟨s.file, w.log⟩
  | releaseOwnership h =>
      rcases hLegal with ⟨s, hObj⟩
      simp only [World.step, hObj]
      refine sound_call hSound ?_
      rw [owned_of_objs hObj]
      exact FDFile.trade_releaseOwnership ⟨s.file, w.log⟩
  | moveConstruct h k =>
      rcases hLegal with ⟨hNone, b, hOther⟩
      simp only [World.step, hOther]
      exact sound_move hSound hOther (owned_of_none hNone)
  | moveAssign h k =>
      rcases hLegal with ⟨a, b, hSelf, hOther, -⟩
      simp only [World.step, hSelf, hOther]
      exact
        sound_move hSound hOther (Classical.not_not.mp hGood)
  | destroy h closed =>
      rcases hLegal with ⟨s, hObj⟩
      exact sound_destroy hSound hObj closed
  | settle fd endpoint => exact hSound
  | outside fd endpoint => exact hSound

------------------------------------------------------------
-- Steps That Lose Track
------------------------------------------------------------

/- The connection owns what was given up before. -/
theorem not_sound_connect
    {w : World ι} {h k : ι} {s : Sock} (left : Endpoint)
    (hSound : Sound w.owned w.log)
    (hObj : w.objs h = some s)
    (hNone : w.objs k = none)
    (hValid : s.file.mFd.valid = true)
    (hBorrowed : s.file.mAutoClose = false) :
    ¬ Sound (w.step (.connect h k (.ok ()) left)).owned
      (w.step (.connect h k (.ok ()) left)).log := by
  have hNothing : w.owned h = [] := by
    rw [owned_of_objs hObj]
    simp [Sock.owned, FDFile.owned, hBorrowed]
  have hNe : h ≠ k := by
    rintro rfl
    rw [hNone] at hObj
    cases hObj
  have hLeft :
      Sock.owned
          { s with file := { s.file with mFd := {} } } =
        [] := by
    simp [Sock.owned, FDFile.owned, FileDescriptor.owned,
      FileDescriptor.valid]
  simp only [World.step, hObj, run_connect_ok]
  refine
    not_sound_of_phantom (h := k) (r := s.file.mFd.mFd)
      hSound ?_ ?_ ?_
  · intro l hl
    have hOwned :=
      owned_put
        (w.put k (some ⟨.connection, s.family,
          ⟨s.file.mFd, true⟩⟩) w.log) h
        (some { s with file := { s.file with mFd := {} } })
        w.log
    refine (congrFun hOwned l).trans ?_
    by_cases hh : l = h
    · subst hh
      rw [Function.update_self, hNothing]
      exact hLeft
    · rw [Function.update_of_ne hh, owned_put,
        Function.update_of_ne hl]
  · rw [owned_of_none hNone]
    exact List.not_mem_nil
  · have hOwned :=
      owned_put
        (w.put k (some ⟨.connection, s.family,
          ⟨s.file.mFd, true⟩⟩) w.log) h
        (some { s with file := { s.file with mFd := {} } })
        w.log
    refine (congrFun hOwned k) ▸ ?_
    rw [Function.update_of_ne hNe.symm, owned_put,
      Function.update_self]
    simp [Places.heldBy, Sock.owned, FDFile.owned,
      FileDescriptor.owned, hValid]

/- Nobody has a descriptor whose address is refused. -/
theorem not_sound_accept
    {w : World ι} {h k : ι} {s : Sock} {fd : FileNum}
    {addr : Option (SocketAddress × UInt32)}
    (hObj : w.objs h = some s)
    (hUnowned : w.Unowned fd) (hRefused : ¬ Updates addr) :
    ¬ Sound (w.step (.accept h k (.ok fd) addr)).owned
      (w.step (.accept h k (.ok fd) addr)).log := by
  rcases
      run_accept_refused fd hRefused
        (⟨s.file, w.log⟩ : Frame FDFile) with
    ⟨ex, hRun⟩
  simp only [World.step, hObj, hRun]
  exact
    @not_sound_of_unheld FileNum ι _ w.log _ [.acquired fd] fd
      (List.mem_singleton.mpr rfl) (by simp) hUnowned

theorem not_sound_moveAssign
    {w : World ι} {h k : ι}
    (hSound : Sound w.owned w.log)
    (hLegal : (Op.moveAssign h k).Legal w)
    (hOwner : w.owned h ≠ []) :
    ¬ Sound (w.step (.moveAssign h k)).owned
      (w.step (.moveAssign h k)).log := by
  rcases hLegal with ⟨a, b, hSelf, hOther, -⟩
  simp only [World.step, hSelf, hOther]
  exact
    Places.not_sound_of_move hSound
      (owned_of_objs hOther).symm rfl hOwner

theorem not_sound_step
    {w : World ι} {op : Op ι}
    (hSound : Sound w.owned w.log)
    (hLegal : op.Legal w) (hFaulty : op.Faulty w) :
    ¬ Sound (w.step op).owned (w.step op).log := by
  cases op with
  | connect h k answer left =>
      rcases hFaulty with
        ⟨rfl, s, hObj, hValid, hBorrowed⟩
      rcases hLegal with ⟨-, -, -, hNone, -⟩
      exact
        not_sound_connect left hSound hObj hNone hValid
          hBorrowed
  | accept h k answer addr =>
      rcases hLegal with ⟨s, hObj, -, -, hAnswer⟩
      cases answer with
      | error e => exact hFaulty.elim
      | ok fd =>
          cases addr with
          | none => exact hFaulty.elim
          | some addr =>
              exact
                not_sound_accept hObj (hAnswer fd rfl).2
                  hFaulty
  | moveAssign h k =>
      exact not_sound_moveAssign hSound hLegal hFaulty
  | _ => exact hFaulty.elim

------------------------------------------------------------
-- Typed Steps
------------------------------------------------------------

variable {attempts : Prop}

theorem Role.Fits.mono
    {role : Role} {e : Endpoint}
    (hFits : role.Fits False e) :
    role.Fits attempts e := by
  cases role with
  | client =>
      rcases hFits with hNew | ⟨hNo, -⟩
      · exact Or.inl hNew
      · exact hNo.elim
  | listener => exact hFits
  | connection => exact hFits
  | dgram => exact hFits

/- Only a client has an attempt to connect that can end. -/
theorem Role.Fits.settled
    {role : Role} {before after : Endpoint}
    (hFits : role.Fits attempts before)
    (hSettles : before.Settles after) :
    role.Fits attempts after := by
  rcases hSettles with ⟨rfl, hAfter⟩
  cases role with
  | client =>
      rcases hFits with hNo | ⟨hAttempts, -⟩
      · cases hNo
      · rcases hAfter with rfl | rfl
        · exact Or.inr ⟨hAttempts, Or.inr rfl⟩
        · exact Or.inl rfl
  | listener => rcases hFits with hNo | hNo <;> cases hNo
  | connection => cases hFits
  | dgram => rcases hFits with hNo | hNo <;> cases hNo

/- One object changes, and one socket of the kernel. -/
theorem typed_put_turn
    {w : World ι} {h : ι} {obj : Option Sock}
    {log : List (Entry FileNum)} {fd : FileNum}
    {e : Endpoint}
    (hTyped : Typed attempts w)
    (hFree : w.Free h fd)
    (hNew :
      ∀ s, obj = some s → ∀ n ∈ s.owned,
        s.role.Fits attempts
          (Function.update w.kernel fd e n)) :
    Typed attempts ((w.put h obj log).turn fd e) := by
  intro l s hObj n hn
  by_cases hl : l = h
  · subst hl
    have hSelf :
        Function.update w.objs l obj l = some s := hObj
    rw [Function.update_self] at hSelf
    exact hNew s hSelf n hn
  · have hOther :
        Function.update w.objs h obj l = some s := hObj
    rw [Function.update_of_ne hl] at hOther
    have hNe : n ≠ fd := by
      rintro rfl
      refine hFree l hl ?_
      rw [owned_of_objs hOther]
      exact hn
    have hKept := hTyped l s hOther n hn
    rwa [← Function.update_of_ne hNe e w.kernel] at hKept

/- One object changes and keeps or loses what it owns. -/
theorem typed_put
    {w : World ι} {h : ι} {obj : Option Sock}
    {log : List (Entry FileNum)}
    (hTyped : Typed attempts w)
    (hNew :
      ∀ s, obj = some s → ∀ n ∈ s.owned,
        s.role.Fits attempts (w.kernel n)) :
    Typed attempts (w.put h obj log) := by
  intro l s hObj n hn
  by_cases hl : l = h
  · subst hl
    have hSelf :
        Function.update w.objs l obj l = some s := hObj
    rw [Function.update_self] at hSelf
    exact hNew s hSelf n hn
  · have hOther :
        Function.update w.objs h obj l = some s := hObj
    rw [Function.update_of_ne hl] at hOther
    exact hTyped l s hOther n hn

theorem typed_call
    {α : Type} {w : World ι} {h : ι} {s : Sock}
    {m : Method (Frame FDFile) α}
    (hTyped : Typed attempts w) (hObj : w.objs h = some s)
    (hLess :
      (m.run ⟨s.file, w.log⟩).2.this.owned ⊆ s.file.owned) :
    Typed attempts (w.call h s m) := by
  refine typed_put hTyped ?_
  rintro t ⟨⟩ n hn
  exact hTyped h s hObj n (hLess hn)

/- The kernel turns the socket of an object. -/
theorem typed_turn
    {w : World ι} {h : ι} {s : Sock} {e : Endpoint}
    (hTyped : Typed attempts w) (hObj : w.objs h = some s)
    (hFree : w.Free h s.file.mFd.mFd)
    (hFits :
      s.file.mFd.mFd ∈ s.owned → s.role.Fits attempts e) :
    Typed attempts (w.turn s.file.mFd.mFd e) := by
  have hSame : w.put h (some s) w.log = w := by
    unfold World.put
    rw [← hObj, Function.update_eq_self]
  have hTurned :
      Typed attempts
        ((w.put h (some s) w.log).turn s.file.mFd.mFd e) := by
    refine typed_put_turn hTyped hFree ?_
    rintro t ⟨⟩ n hn
    by_cases hn' : n = s.file.mFd.mFd
    · subst hn'
      rw [Function.update_self]
      exact hFits hn
    · rw [Function.update_of_ne hn']
      exact hTyped h s hObj n hn
  rw [hSame] at hTurned
  exact hTurned

theorem typed_tell
    {w : World ι} {h : ι} {s : Sock} {answer : Sys Unit}
    {e : Endpoint}
    (hTyped : Typed attempts w) (hObj : w.objs h = some s)
    (hFree : answer = .ok () → w.Free h s.file.mFd.mFd)
    (hFits : s.role.Fits attempts e) :
    Typed attempts (w.tell s answer e) := by
  cases answer with
  | error _ => exact hTyped
  | ok =>
      exact
        typed_turn hTyped hObj (hFree rfl) fun _ => hFits

/- A new object with a socket that fits. -/
theorem typed_new
    {w : World ι} (h : ι) {role : Role} (family : Family)
    (log : List (Entry FileNum)) {fd : FileNum}
    {e : Endpoint}
    (hTyped : Typed attempts w) (hFree : w.Free h fd)
    (hValid : fd ≠ FileNum.invalid)
    (hFits : role.Fits attempts e) :
    Typed attempts
      ((w.put h (some ⟨role, family, ⟨⟨fd⟩, true⟩⟩) log).turn
        fd e) := by
  refine typed_put_turn hTyped hFree ?_
  rintro t ⟨⟩ n hn
  simp only [Sock.owned, owned_single hValid,
    List.mem_singleton] at hn
  rw [hn, Function.update_self]
  exact hFits

theorem typed_move
    {w : World ι} {h k : ι} {a b : Sock}
    (hTyped : Typed attempts w) (hOther : w.objs k = some b)
    (hRole : a.role = b.role) :
    Typed attempts (w.move h k a b) := by
  have hTaken :
      Typed attempts
        (w.put h (some { a with file := b.file }) w.log) := by
    refine typed_put hTyped ?_
    rintro t ⟨⟩ n hn
    rw [hRole]
    exact hTyped k b hOther n hn
  refine
    @typed_put ι _ attempts _ k (some b.blank) w.log hTaken ?_
  rintro t ⟨⟩ n hn
  cases hn

theorem fits_new {role : Role} (hRole : role ≠ .connection) :
    role.Fits attempts .unconnected := by
  cases role with
  | connection => exact absurd rfl hRole
  | client => exact Or.inl rfl
  | listener => exact Or.inl rfl
  | dgram => exact Or.inl rfl

theorem fits_connected
    {role : Role}
    (hRole : role = .connection ∨ role = .dgram) :
    role.Fits attempts .connected := by
  rcases hRole with rfl | rfl
  · rfl
  · exact Or.inr rfl

theorem typed_pair
    {w : World ι} {h k : ι} {role : Role}
    {answer : Sys (FileNum × FileNum)}
    (hTyped : Typed attempts w)
    (hLegal : (Op.pair h k role answer).Legal w) :
    Typed attempts (w.step (.pair h k role answer)) := by
  rcases hLegal with ⟨hNe, -, -, hRole, hAnswer⟩
  cases answer with
  | error e => exact hTyped
  | ok ends =>
      rcases ends with ⟨fd, fd'⟩
      rcases hAnswer (fd, fd') rfl with
        ⟨hValid, hUnowned, hValid', hUnowned', hOther⟩
      have hFits : role.Fits attempts .connected :=
        fits_connected hRole
      have hOne :=
        typed_new h .unix (.acquired fd :: w.log) hTyped
          (free_of_unowned hUnowned h) hValid hFits
      refine
        typed_new k .unix
          (.acquired fd' :: .acquired fd :: w.log) hOne ?_
          hValid' hFits
      intro l hl hMem
      have hOwned :=
        owned_put w h (some ⟨role, .unix, ⟨⟨fd⟩, true⟩⟩)
          (.acquired fd :: w.log)
      have hMem' := (congrFun hOwned l) ▸ hMem
      by_cases hh : l = h
      · subst hh
        rw [Function.update_self] at hMem'
        simp only [Places.heldBy, Sock.owned,
          owned_single hValid, List.mem_singleton] at hMem'
        exact hOther hMem'.symm
      · rw [Function.update_of_ne hh] at hMem'
        exact hUnowned' l hMem'

/- A connection has the socket that its client had. -/
theorem typed_connect
    {w : World ι} {h k : ι} {s : Sock} (left : Endpoint)
    (hTyped : Typed attempts w) (hObj : w.objs h = some s)
    (hNone : w.objs k = none)
    (hFree : w.Free h s.file.mFd.mFd) :
    Typed attempts (w.step (.connect h k (.ok ()) left)) := by
  have hNe : k ≠ h := by
    rintro rfl
    rw [hNone] at hObj
    cases hObj
  have hLeft :
      Sock.owned
          { s with file := { s.file with mFd := {} } } =
        [] := by
    simp [Sock.owned, FDFile.owned, FileDescriptor.owned,
      FileDescriptor.valid]
  have hGone :
      Typed attempts
        (w.put h
          (some { s with file := { s.file with mFd := {} } })
          w.log) := by
    refine typed_put hTyped ?_
    rintro t ⟨⟩ n hn
    rw [hLeft] at hn
    cases hn
  have hStep :
      w.step (.connect h k (.ok ()) left) =
        (World.put
          (w.put h
            (some
              { s with file := { s.file with mFd := {} } })
            w.log) k
          (some ⟨.connection, s.family, ⟨s.file.mFd, true⟩⟩)
          w.log).turn s.file.mFd.mFd .connected := by
    simp only [World.step, hObj, run_connect_ok, World.put]
    rw [Function.update_comm hNe]
  rw [hStep]
  refine typed_put_turn hGone ?_ ?_
  · intro l _ hMem
    rw [owned_put] at hMem
    by_cases hl : l = h
    · subst hl
      rw [Function.update_self] at hMem
      have hNothing : s.file.mFd.mFd ∈ ([] : List FileNum) :=
        hLeft ▸ hMem
      cases hNothing
    · rw [Function.update_of_ne hl] at hMem
      exact hFree l hl hMem
  · rintro t ⟨⟩ n hn
    have hSame : n = s.file.mFd.mFd := by
      simp only [Sock.owned, FDFile.owned, if_true,
        FileDescriptor.owned] at hn
      split at hn
      · exact List.mem_singleton.mp hn
      · cases hn
    rw [hSame, Function.update_self]
    rfl

/- A `connect` that fails can leave an attempt behind. -/
theorem typed_connect_error
    {w : World ι} {h : ι} {s : Sock} (k : ι) {e : Errno}
    {left : Endpoint}
    (hTyped : Typed attempts w) (hObj : w.objs h = some s)
    (hRole : s.role = .client)
    (hFree : w.Free h s.file.mFd.mFd)
    (hLeaves : Leaves e (w.kernel s.file.mFd.mFd) left)
    (hAttempts : GoesOn e → attempts) :
    Typed attempts
      (w.step (.connect h k (.error e) left)) := by
  rw [step_connect_error hObj]
  refine typed_turn hTyped hObj hFree ?_
  intro hOwned
  have hBefore := hTyped h s hObj _ hOwned
  rw [hRole] at hBefore ⊢
  rcases hLeaves with rfl | rfl | ⟨hGoesOn, rfl⟩
  · exact hBefore
  · exact Or.inl rfl
  · exact Or.inr ⟨hAttempts hGoesOn, Or.inl rfl⟩

theorem typed_construct
    {w : World ι} {h : ι} {role : Role} {family : Family}
    {fits : Bool} {answer : Sys FileNum} {closed : Sys Unit}
    (hTyped : Typed attempts w)
    (hLegal :
      (Op.construct h role family fits answer closed).Legal
        w) :
    Typed attempts
      (w.step
        (.construct h role family fits answer closed)) := by
  rcases hLegal with ⟨-, hRole, hAnswer⟩
  have hRun :=
    run_construct
      (decide (family = .unix ∧ role ≠ .dgram)) fits closed
      w.log fun fd hFd => (hAnswer fd hFd).1
  rcases hRun with ⟨fd, rfl, hRun⟩ | ⟨ex, f, log, hRun, -⟩
  · rcases hAnswer fd rfl with ⟨hValid, hUnowned⟩
    simp only [World.step, hRun]
    exact
      typed_new h family _ hTyped
        (free_of_unowned hUnowned h) hValid (fits_new hRole)
  · simp only [World.step, hRun]
    refine typed_put hTyped ?_
    intro s hSome
    cases hSome

theorem typed_adopt
    {w : World ι} {h : ι} {role : Role} {family : Family}
    {fd : FileDescriptor} {autoClose : Bool}
    (hTyped : Typed attempts w)
    (hLegal : (Op.adopt h role family fd autoClose).Legal w) :
    Typed attempts
      (w.step (.adopt h role family fd autoClose)) := by
  rcases hLegal with ⟨-, -, hFd⟩
  refine typed_put hTyped ?_
  rintro t ⟨⟩ n hn
  rw [FDFile.run_openFd] at hn
  simp only [Sock.owned, FDFile.owned,
    FileDescriptor.owned] at hn
  split at hn
  · next hAuto =>
      split at hn
      · next hValid =>
          rw [List.mem_singleton.mp hn]
          exact (hFd hAuto hValid).2.mono
      · cases hn
  · cases hn

/- What is accepted is connected. -/
theorem typed_accept
    {w : World ι} {h k : ι} {answer : Sys FileNum}
    {addr : Option (SocketAddress × UInt32)}
    (hTyped : Typed attempts w)
    (hLegal : (Op.accept h k answer addr).Legal w) :
    Typed attempts (w.step (.accept h k answer addr)) := by
  rcases hLegal with ⟨s, hObj, -, -, hAnswer⟩
  simp only [World.step, hObj]
  cases answer with
  | error e => exact hTyped
  | ok fd =>
      rcases hAnswer fd rfl with ⟨hValid, hUnowned⟩
      by_cases hUpdates : Updates addr
      · rw [run_accept_ok fd hUpdates]
        exact
          typed_new k s.family _ hTyped
            (free_of_unowned hUnowned k) hValid rfl
      · rcases
            run_accept_refused fd hUpdates
              (⟨s.file, w.log⟩ : Frame FDFile) with
          ⟨ex, hRun⟩
        rw [hRun]
        exact hTyped

omit [DecidableEq ι] in
/- A descriptor that no object owns can be anything. -/
theorem typed_outside
    {w : World ι} {fd : FileNum} (endpoint : Endpoint)
    (hTyped : Typed attempts w) (hUnowned : w.Unowned fd) :
    Typed attempts (w.turn fd endpoint) := by
  intro h s hObj n hn
  have hKeep : w.objs h = some s := hObj
  have hNe : n ≠ fd := by
    rintro rfl
    refine hUnowned h ?_
    rw [owned_of_objs hKeep]
    exact hn
  have hKept := hTyped h s hObj n hn
  rwa [← Function.update_of_ne hNe endpoint w.kernel]
    at hKept

omit [DecidableEq ι] in
/- An attempt that ends leaves its client with its socket. -/
theorem typed_settle
    {w : World ι} {fd : FileNum} {endpoint : Endpoint}
    (hTyped : Typed attempts w)
    (hSettles : (w.kernel fd).Settles endpoint) :
    Typed attempts (w.turn fd endpoint) := by
  intro h s hObj n hn
  have hKept := hTyped h s hObj n hn
  change
    s.role.Fits attempts
      (Function.update w.kernel fd endpoint n)
  by_cases hn' : n = fd
  · subst hn'
    rw [Function.update_self]
    exact hKept.settled hSettles
  · rw [Function.update_of_ne hn']
    exact hKept

/-
  Every step keeps the sockets what their objects are, with
  attempts only where a step leaves them.
-/
theorem typed_step
    {w : World ι} {op : Op ι}
    (hTyped : Typed attempts w) (hLegal : op.Legal w)
    (hAttempts : op.LeavesAttempt → attempts) :
    Typed attempts (w.step op) := by
  cases op with
  | construct h role family fits answer closed =>
      exact typed_construct hTyped hLegal
  | adopt h role family fd autoClose =>
      exact typed_adopt hTyped hLegal
  | pair h k role answer => exact typed_pair hTyped hLegal
  | listen h answer =>
      rcases hLegal with ⟨s, hObj, hRole, hFree⟩
      simp only [World.step, hObj]
      refine typed_tell hTyped hObj hFree ?_
      rw [hRole]
      exact Or.inr rfl
  | connect h k answer left =>
      rcases hLegal with
        ⟨s, hObj, hRole, hNone, hFree, hLeaves⟩
      cases answer with
      | error e =>
          exact
            typed_connect_error k hTyped hObj hRole hFree
              (hLeaves e rfl) hAttempts
      | ok => exact typed_connect left hTyped hObj hNone hFree
  | connectDgram h answer =>
      rcases hLegal with ⟨s, hObj, hRole, hFree⟩
      simp only [World.step, hObj]
      refine typed_tell hTyped hObj hFree ?_
      rw [hRole]
      exact Or.inr rfl
  | accept h k answer addr =>
      exact typed_accept hTyped hLegal
  | close h closed =>
      rcases hLegal with ⟨s, hObj⟩
      simp only [World.step, hObj]
      refine typed_call hTyped hObj ?_
      rw [FDFile.run_close]
      intro n hn
      cases hn
  | takeOwnership h =>
      rcases hLegal with ⟨s, hObj⟩
      simp only [World.step, hObj]
      refine typed_call hTyped hObj ?_
      simp [FDFile.takeOwnership, Command.run_bind,
        Frame.run_handOut, FDFile.owned,
        FileDescriptor.reset]
  | releaseOwnership h =>
      rcases hLegal with ⟨s, hObj⟩
      simp only [World.step, hObj]
      refine typed_call hTyped hObj ?_
      simp [FDFile.releaseOwnership, Command.run_bind,
        Frame.run_handOut, FDFile.owned]
  | moveConstruct h k =>
      rcases hLegal with ⟨hNone, b, hOther⟩
      simp only [World.step, hOther]
      exact typed_move hTyped hOther rfl
  | moveAssign h k =>
      rcases hLegal with ⟨a, b, hSelf, hOther, hClass⟩
      simp only [World.step, hSelf, hOther]
      exact typed_move hTyped hOther hClass.1
  | destroy h closed =>
      rcases hLegal with ⟨s, hObj⟩
      simp only [World.step, hObj]
      refine typed_put hTyped ?_
      intro s hSome
      cases hSome
  | settle fd endpoint => exact typed_settle hTyped hLegal
  | outside fd endpoint =>
      exact typed_outside endpoint hTyped hLegal

------------------------------------------------------------
-- Runs
------------------------------------------------------------

def machine : Machine (World ι) (Op ι) where
  legal w op := op.Legal w
  step := World.step

/- The run of `attempts` that its steps leave. -/
theorem typed_along
    (kernel : FileNum → Endpoint) {ops : List (Op ι)}
    (hLegal : machine.Legal (start kernel) ops)
    (hAttempts :
      machine.Along
        (fun _ op _ => op.LeavesAttempt → attempts)
        (start kernel) ops) :
    machine.Along (fun _ _ w => Typed attempts w)
      (start kernel) ops := by
  refine
    Machine.along_of_invariant (Typed attempts) ?_ ops
      (start kernel) ?_ hLegal hAttempts
  · intro w op hTyped hOp hGood
    have hNext := typed_step hTyped hOp hGood
    exact ⟨hNext, hNext⟩
  · intro h s hObj
    cases hObj

/-
  In a run of operations on any number of sockets every
  object owns only sockets of its kind in every state. A
  client owns no other than an unconnected one as long as no
  `connect` fails and goes on. The descriptors are conserved
  in every state exactly as long as no operation is faulty.
-/
theorem sockets_conserved
    (kernel : FileNum → Endpoint) (ops : List (Op ι))
    (hLegal : machine.Legal (start kernel) ops) :
    machine.Along (fun _ _ w => Typed True w)
        (start kernel) ops ∧
      (machine.Along (fun _ op _ => ¬ op.LeavesAttempt)
          (start kernel) ops →
        machine.Along (fun _ _ w => Typed False w)
          (start kernel) ops) ∧
      (machine.Along (fun _ _ w => Sound w.owned w.log)
          (start kernel) ops ↔
        machine.Along (fun w op _ => ¬ op.Faulty w)
          (start kernel) ops) := by
  refine ⟨?_, typed_along kernel hLegal, ?_⟩
  · refine typed_along kernel hLegal ?_
    exact
      Machine.along_of_step (fun _ => True)
        (fun _ _ _ _ => ⟨trivial, fun _ => trivial⟩) ops
        (start kernel) trivial hLegal
  · refine
      Machine.along_iff_of_invariant
        (fun w => Sound w.owned w.log) ?_ ?_ ops
        (start kernel) (sound_nil fun _ => rfl) hLegal
    · intro w op hSound hOp hGood
      have hNext := sound_step hSound hOp hGood
      exact ⟨hNext, hNext⟩
    · intro w op hSound hOp hFaulty
      exact
        not_sound_step hSound hOp
          (Classical.not_not.mp hFaulty)

end Worlds

/-
  A client whose `connect` does not block: it fails and goes
  on, and the next one reports the connection. The client is
  at one place, the connection at the other one.
-/
theorem sockets_conserved_nonBlocking :
    machine.Along
      (fun _ _ w => Typed True w ∧ Sound w.owned w.log)
      (start fun _ => .unconnected : World Bool)
      [.construct true .client .inet true (.ok ⟨3⟩) (.ok ()),
        .connect true false (.error .inProgress) .attempting,
        .settle ⟨3⟩ .established,
        .connect true false (.ok ()) .unconnected] := by
  have hLegal :
      machine.Legal
        (start fun _ => .unconnected : World Bool)
        [.construct true .client .inet true (.ok ⟨3⟩)
            (.ok ()),
          .connect true false (.error .inProgress)
            .attempting,
          .settle ⟨3⟩ .established,
          .connect true false (.ok ()) .unconnected] := by
    have hFree (w : World Bool)
        (hNone : w.objs false = none) (fd : FileNum) :
        w.Free true fd := by
      intro k hk
      cases k with
      | true => exact absurd rfl hk
      | false =>
          rw [owned_of_none hNone]
          exact List.not_mem_nil
    refine
      ⟨⟨rfl, by decide, ?_⟩,
        ⟨⟨.client, .inet, ⟨⟨⟨3⟩⟩, true⟩⟩, rfl, rfl, rfl,
          hFree _ rfl _, ?_⟩,
        ⟨rfl, Or.inl rfl⟩,
        ⟨⟨.client, .inet, ⟨⟨⟨3⟩⟩, true⟩⟩, rfl, rfl, rfl,
          hFree _ rfl _, ?_⟩,
        trivial⟩
    · rintro fd ⟨⟩
      exact ⟨by decide, fun _ => List.not_mem_nil⟩
    · rintro e ⟨⟩
      exact Or.inr (Or.inr ⟨Or.inl rfl, rfl⟩)
    · intro e hError
      cases hError
  rcases sockets_conserved _ _ hLegal with
    ⟨hTyped, -, hIff⟩
  have hSound :=
    hIff.mpr
      ⟨id, fun hFaulty => absurd hFaulty.1 (by decide), id,
        ?_, trivial⟩
  · exact
      ⟨⟨hTyped.1, hSound.1⟩, ⟨hTyped.2.1, hSound.2.1⟩,
        ⟨hTyped.2.2.1, hSound.2.2.1⟩,
        ⟨hTyped.2.2.2.1, hSound.2.2.2.1⟩, trivial⟩
  · rintro ⟨-, s, hObj, -, hBorrowed⟩
    cases hObj
    cases hBorrowed

end Sockets

end Cosmos
