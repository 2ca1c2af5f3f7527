import LibCosmos.Core.Str
import LibCosmos.Foundation.Buffer
import LibCosmos.IO.StreamIO

/-
  Reading inotify events (`include/fs/INotify.hxx`,
  `src/fs/INotify.cxx`).

  The kernel delivers its events in batches, one batch for
  every `::read` that does not fail. A batch is written to
  the buffer of the object as bytes, and the events are
  handed out as offsets in that buffer.

  Main declarations:
    * `INotify.readEvent`, `INotify.tryReadEvent`
    * `INotify.Notification`, `INotify.Batch`
    * `INotify.Holds`, the events that are left in an object
    * `INotify.session`, `INotify.Faithful`
    * `INotify.session_faithful`
-/

namespace Cosmos

namespace INotify

open Buffer

------------------------------------------------------------
-- Events of the Kernel
------------------------------------------------------------

/- An event with the padding that the kernel adds. -/
structure Notification where
  wd : Int32
  mask : UInt32
  cookie : UInt32
  name : Str
  padding : Nat
  name_valid : (0 : Byte) ∉ name
  fits : name.length + padding < 256 ^ 4

/- The `len` field. -/
def Notification.len (e : Notification) : Nat :=
  e.name.length + e.padding

/- A `struct inotify_event` in memory. -/
def Notification.bytes (e : Notification) : List Byte :=
  leBytes 4 e.wd.toUInt32.toNat ++
    (leBytes 4 e.mask.toNat ++
      (leBytes 4 e.cookie.toNat ++
        (leBytes 4 e.len ++
          (e.name ++ List.replicate e.padding 0))))

/- What one `::read` delivers into so many bytes. -/
structure Batch (size : Nat) where
  events : List Notification
  nonempty : events ≠ []
  fits : (events.flatMap Notification.bytes).length ≤ size

abbrev Reply (size : Nat) : Type :=
  Except Errno (Batch size)

------------------------------------------------------------
-- The Object
------------------------------------------------------------

/- The data of an object that was made for `size` bytes. -/
structure Object where
  buffer : List Byte
  offset : Nat
deriving DecidableEq, Repr

/- The answers to the coming `::read` calls are part of it. -/
structure World (size : Nat) where
  notify : Object
  replies : List (Reply size)

/-
  Why a call gives no result: the kernel has not answered, an
  assertion failed, or memory was accessed that does not
  belong to the buffer.
-/
inductive Stop where
| pending
| assertion
| outOfBounds
deriving DecidableEq, Repr

abbrev Routine (size : Nat) (α : Type) : Type :=
  Command (World size) Stop Exn α

/- A new object. -/
def create : Object where
  buffer := []
  offset := 0

/- `std::vector::resize`. -/
def resize (buffer : List Byte) (n : Nat) : List Byte :=
  buffer.take n ++ List.replicate (n - buffer.length) 0

/- Read a number from the buffer. -/
def load
    (buffer : List Byte) (pos width : Nat) : Option Nat :=
  if pos + width ≤ buffer.length then
    some (leValue (read buffer pos width))
  else none

section Code

variable {size : Nat} (autoRestart : Bool)

/-
  `StreamIO::read` into the buffer. The kernel writes the
  batch that it delivers.
-/
def readLoop (notify : Object) :
    List (Reply size) → Outcome Stop Exn Nat × World size
| [] => (.halted .pending, ⟨notify, []⟩)
| .ok batch :: rest =>
    let bytes := batch.events.flatMap Notification.bytes
    (.returned bytes.length,
      ⟨{ notify with buffer := write notify.buffer 0 bytes },
        rest⟩)
| .error e :: rest =>
    match StreamIO.handleIOError autoRestart "read()" e with
    | .ok () => readLoop notify rest
    | .error ex => (.raised ex, ⟨notify, rest⟩)

def fileRead : Routine size Nat where
  run w := readLoop autoRestart w.notify w.replies

def setBuffer (buffer : List Byte) : Routine size Unit :=
  Command.modify fun w =>
    { w with notify := { w.notify with buffer := buffer } }

def setOffset (offset : Nat) : Routine size Unit :=
  Command.modify fun w =>
    { w with notify := { w.notify with offset := offset } }

/- The `if` at the start of `readEvent`. -/
def refill : Routine size Unit := do
  let w ← Command.get
  if w.notify.buffer.length ≤ w.notify.offset then
    -- we need to read in new data
    setBuffer (resize w.notify.buffer size)
    -- in case of a throw this is a reentrant state
    setOffset size
    let read ← fileRead autoRestart
    setOffset 0
    if read = 0 then Command.halt .assertion
    else
      let w ← Command.get
      setBuffer (resize w.notify.buffer read)
  else
    pure ()

/- An `Event` is a pointer into the buffer. -/
structure Event where
  m_ev : Nat
deriving DecidableEq, Repr

/- `readEvent`. -/
def readEvent : Routine size Event := do
  refill autoRestart
  let w ← Command.get
  let event_loc := w.notify.offset
  match load w.notify.buffer (event_loc + 12) 4 with
  | none => Command.halt .outOfBounds
  | some len => do
      setOffset (event_loc + (16 + len))
      pure ⟨event_loc⟩

/- `tryReadEvent`. -/
def tryReadEvent : Routine size (Option Event) :=
  (do
    let event ← readEvent autoRestart
    pure (some event)).handle fun ex =>
      match ex with
      | .apiError errnum _ =>
          if errnum = Errno.again then pure none
          else Command.raise ex
      | _ => Command.raise ex

end Code

/- The event bits and the flag bits of a mask. -/
def allEvents : UInt32 := 0xfff

namespace Event

/- `id`. -/
def id (ev : Event) (buffer : List Byte) : Option Int32 :=
  (load buffer ev.m_ev 4).map fun wd =>
    (UInt32.ofNat wd).toInt32

def mask (ev : Event) (buffer : List Byte) : Option UInt32 :=
  (load buffer (ev.m_ev + 4) 4).map UInt32.ofNat

/- `event`. -/
def event (ev : Event) (buffer : List Byte) :
    Option UInt32 :=
  (ev.mask buffer).map (· &&& allEvents)

/- `flags`. -/
def flags (ev : Event) (buffer : List Byte) :
    Option UInt32 :=
  (ev.mask buffer).map (· &&& ~~~allEvents)

/- `cookie`. -/
def cookie (ev : Event) (buffer : List Byte) :
    Option UInt32 :=
  (load buffer (ev.m_ev + 8) 4).map UInt32.ofNat

/- `name`. -/
def name (ev : Event) (buffer : List Byte) : Option Str :=
  match load buffer (ev.m_ev + 12) 4 with
  | none => none
  | some len =>
      if len = 0 then some []
      else if ev.m_ev + 16 + len ≤ buffer.length then
        let ret := read buffer (ev.m_ev + 16) len
        -- len contains zero padding bytes
        some (ret.take (Str.next (Str.findLastNotOf ret 0)))
      else none

end Event

/- What the accessors of an event tell. -/
structure View where
  id : Int32
  event : UInt32
  flags : UInt32
  cookie : UInt32
  name : Str
deriving DecidableEq, Repr

def Event.view (ev : Event) (buffer : List Byte) :
    Option View := do
  let id ← ev.id buffer
  let event ← ev.event buffer
  let flags ← ev.flags buffer
  let cookie ← ev.cookie buffer
  let name ← ev.name buffer
  pure ⟨id, event, flags, cookie, name⟩

def Notification.view (e : Notification) : View where
  id := e.wd
  event := e.mask &&& allEvents
  flags := e.mask &&& ~~~allEvents
  cookie := e.cookie
  name := e.name

------------------------------------------------------------
-- Calls
------------------------------------------------------------

inductive Call where
| readEvent
| tryReadEvent
deriving DecidableEq, Repr

/- What the caller of either function gets. -/
inductive Answer where
| event (view : View)
| nothing
| thrown (ex : Exn)
| stopped (stop : Stop)
deriving DecidableEq, Repr

def Answer.isStopped : Answer → Bool
| .stopped _ => true
| _ => false

/- An event is looked at before the next call. -/
def answer (buffer : List Byte) :
    Outcome Stop Exn (Option Event) → Answer
| .returned (some ev) =>
    match ev.view buffer with
    | some view => .event view
    | none => .stopped .outOfBounds
| .returned none => .nothing
| .raised ex => .thrown ex
| .halted stop => .stopped stop

/- A call, the replies that it used up and its answer. -/
structure Record (size : Nat) where
  call : Call
  consumed : List (Reply size)
  answer : Answer

section Calls

variable {size : Nat} (autoRestart : Bool)

def Call.routine : Call → Routine size (Option Event)
| .readEvent => do
    let event ← INotify.readEvent autoRestart
    pure (some event)
| .tryReadEvent => INotify.tryReadEvent autoRestart

def perform (call : Call) (w : World size) :
    Record size × World size :=
  let r := (call.routine autoRestart).run w
  (⟨call,
    w.replies.take
      (w.replies.length - r.2.replies.length),
    answer r.2.notify.buffer r.1⟩, r.2)

/- One call after the other, up to one that is stopped. -/
def session :
    List Call → World size → List (Record size) × World size
| [], w => ([], w)
| call :: calls, w =>
    let p := perform autoRestart call w
    if p.1.answer.isStopped then ([p.1], p.2)
    else
      let r := session calls p.2
      (p.1 :: r.1, r.2)

------------------------------------------------------------
-- Specification
------------------------------------------------------------

/- An interrupted `::read` that is called again. -/
def restarts : Reply size → Bool
| .ok _ => false
| .error e => autoRestart && e == .interrupted

/- The reply that decided a call. -/
def Record.verdict (r : Record size) :
    Option (Reply size) :=
  r.consumed.find? fun reply => !restarts autoRestart reply

/- The events in the replies, in the order of the kernel. -/
def delivered (replies : List (Reply size)) :
    List Notification :=
  replies.flatMap fun reply =>
    match reply with
    | .ok batch => batch.events
    | .error _ => []

/- The events that the calls returned. -/
def returned (records : List (Record size)) : List View :=
  records.filterMap fun r =>
    match r.answer with
    | .event view => some view
    | _ => none

def consumed (records : List (Record size)) :
    List (Reply size) :=
  records.flatMap Record.consumed

/-
  A call fails only with the error of a read: with EAGAIN
  `tryReadEvent` returns nothing, every other error is
  thrown. A call that does not return waits for the kernel.
-/
structure Explained (r : Record size) : Prop where
  nothing_iff :
    r.answer = .nothing ↔
      r.call = .tryReadEvent ∧
        r.verdict autoRestart = some (.error .again)
  thrown_iff :
    ∀ ex, r.answer = .thrown ex ↔
      ∃ e, r.verdict autoRestart = some (.error e) ∧
        ex = .apiError e (str "read()") ∧
        ¬ (r.call = .tryReadEvent ∧ e = .again)
  in_bounds :
    ∀ stop, r.answer = .stopped stop → stop = .pending

/-
  What the object is for. The events that were read are the
  events that were returned, each once and in order, followed
  by the events that are left for later calls.
-/
structure Faithful
    (replies : List (Reply size)) (calls : List Call)
    (records : List (Record size)) (w : World size) :
    Prop where
  replies_eq : replies = consumed records ++ w.replies
  in_order :
    ∃ left,
      (delivered (consumed records)).map Notification.view =
        returned records ++ left.map Notification.view ∧
      ((∃ r ∈ records, r.answer = .stopped .pending) →
        left = [] ∧ w.replies = [])
  explained : ∀ r ∈ records, Explained autoRestart r
  calls_prefix : records.map Record.call <+: calls
  calls_eq :
    (∀ r ∈ records, r.answer ≠ .stopped .pending) →
      records.map Record.call = calls

end Calls

------------------------------------------------------------
-- Bytes of an Event
------------------------------------------------------------

theorem Notification.length_bytes (e : Notification) :
    e.bytes.length = 16 + e.len := by
  unfold Notification.bytes Notification.len
  simp only [List.length_append, length_leBytes,
    List.length_replicate]
  omega

/- A number inside what is in the buffer. -/
theorem load_of_drop
    {buffer front back : List Byte} {pos k width : Nat}
    (hDrop : buffer.drop pos = front ++ back)
    (hFits : k + width ≤ front.length)
    (hWidth : 0 < width) :
    load buffer (pos + k) width =
      some (leValue (read front k width)) := by
  have hLength := congrArg List.length hDrop
  rw [List.length_drop, List.length_append] at hLength
  unfold load
  rw [if_pos (by omega), read_of_drop hDrop hFits]

namespace Notification

variable (e : Notification)

theorem read_wd :
    read e.bytes 0 4 = leBytes 4 e.wd.toUInt32.toNat := by
  unfold Notification.bytes
  rw [read_append_left _ _ (length_leBytes _ _)]

theorem read_mask :
    read e.bytes 4 4 = leBytes 4 e.mask.toNat := by
  unfold Notification.bytes
  rw [read_append_right _ _ (length_leBytes 4 _) 0,
    read_append_left _ _ (length_leBytes _ _)]

theorem read_cookie :
    read e.bytes 8 4 = leBytes 4 e.cookie.toNat := by
  unfold Notification.bytes
  rw [read_append_right _ _ (length_leBytes 4 _) 4,
    read_append_right _ _ (length_leBytes 4 _) 0,
    read_append_left _ _ (length_leBytes _ _)]

theorem read_len :
    read e.bytes 12 4 = leBytes 4 e.len := by
  unfold Notification.bytes
  rw [read_append_right _ _ (length_leBytes 4 _) 8,
    read_append_right _ _ (length_leBytes 4 _) 4,
    read_append_right _ _ (length_leBytes 4 _) 0,
    read_append_left _ _ (length_leBytes _ _)]

theorem read_name :
    read e.bytes 16 e.len =
      e.name ++ List.replicate e.padding 0 := by
  have hLength :
      (e.name ++ List.replicate e.padding 0).length =
        e.len := by
    unfold Notification.len
    rw [List.length_append, List.length_replicate]
  unfold Notification.bytes
  rw [read_append_right _ _ (length_leBytes 4 _) 12,
    read_append_right _ _ (length_leBytes 4 _) 8,
    read_append_right _ _ (length_leBytes 4 _) 4,
    read_append_right _ _ (length_leBytes 4 _) 0]
  unfold Buffer.read
  rw [List.drop_zero, List.take_of_length_le]
  rw [hLength]

end Notification

section Accessors

variable
    {buffer back : List Byte} {pos : Nat} {e : Notification}

theorem load_len
    (hDrop : buffer.drop pos = e.bytes ++ back) :
    load buffer (pos + 12) 4 = some e.len := by
  have hFits : e.len < 256 ^ 4 := e.fits
  rw [load_of_drop hDrop (by rw [e.length_bytes]; omega)
    (by decide), e.read_len,
    leValue_leBytes_of_lt hFits]

theorem id_of_drop
    (hDrop : buffer.drop pos = e.bytes ++ back) :
    (Event.mk pos).id buffer = some e.wd := by
  have hLoad :
      load buffer (pos + 0) 4 =
        some (leValue (read e.bytes 0 4)) :=
    load_of_drop hDrop (by rw [e.length_bytes]; omega)
      (by decide)
  rw [Nat.add_zero] at hLoad
  unfold Event.id
  simp only [hLoad]
  rw [e.read_wd, leValue_leBytes_of_lt]
  · rw [Option.map_some, UInt32.ofNat_toNat]
    rfl
  · exact e.wd.toUInt32.toNat_lt

theorem mask_of_drop
    (hDrop : buffer.drop pos = e.bytes ++ back) :
    (Event.mk pos).mask buffer = some e.mask := by
  unfold Event.mask
  rw [load_of_drop hDrop (by rw [e.length_bytes]; omega)
    (by decide), e.read_mask, leValue_leBytes_of_lt]
  · simp
  · exact e.mask.toNat_lt

theorem cookie_of_drop
    (hDrop : buffer.drop pos = e.bytes ++ back) :
    (Event.mk pos).cookie buffer = some e.cookie := by
  unfold Event.cookie
  rw [load_of_drop hDrop (by rw [e.length_bytes]; omega)
    (by decide), e.read_cookie, leValue_leBytes_of_lt]
  · simp
  · exact e.cookie.toNat_lt

/- The padding is stripped, and nothing but the padding. -/
theorem name_of_drop
    (hDrop : buffer.drop pos = e.bytes ++ back) :
    (Event.mk pos).name buffer = some e.name := by
  have hLength := congrArg List.length hDrop
  rw [List.length_drop, List.length_append,
    e.length_bytes] at hLength
  unfold Event.name
  rw [load_len hDrop]
  by_cases hEmpty : e.len = 0
  · have hName : e.name = [] := by
      unfold Notification.len at hEmpty
      exact List.length_eq_zero_iff.mp (by omega)
    simp only [if_pos hEmpty, hName]
  · have hInside : pos + 16 + e.len ≤ buffer.length := by
      omega
    have hRead :
        read buffer (pos + 16) e.len =
          e.name ++ List.replicate e.padding 0 := by
      rw [read_of_drop hDrop (by rw [e.length_bytes]),
        e.read_name]
    simp only [if_neg hEmpty, if_pos hInside, hRead]
    rw [Str.take_next_findLastNotOf]
    intro hLast
    exact e.name_valid (List.mem_of_getLast? hLast)

theorem view_of_drop
    (hDrop : buffer.drop pos = e.bytes ++ back) :
    (Event.mk pos).view buffer = some e.view := by
  unfold Event.view Event.event Event.flags
  rw [id_of_drop hDrop, mask_of_drop hDrop,
    cookie_of_drop hDrop, name_of_drop hDrop]
  rfl

end Accessors

------------------------------------------------------------
-- One Call
------------------------------------------------------------

/- The events that are left in the buffer. -/
def Holds
    (notify : Object) (events : List Notification) : Prop :=
  notify.buffer.drop notify.offset =
    events.flatMap Notification.bytes

theorem holds_create : Holds create [] := by
  rfl

theorem bytes_ne_nil (e : Notification) : e.bytes ≠ [] := by
  intro hNil
  have hLength := e.length_bytes
  rw [hNil, List.length_nil] at hLength
  omega

theorem offset_lt
    {notify : Object} {e : Notification}
    {events : List Notification}
    (hHolds : Holds notify (e :: events)) :
    notify.offset < notify.buffer.length := by
  by_contra hLe
  unfold Holds at hHolds
  rw [List.drop_eq_nil_of_le (by omega),
    List.flatMap_cons] at hHolds
  exact
    bytes_ne_nil e (List.append_eq_nil_iff.mp hHolds.symm).1

theorem length_le_offset
    {notify : Object} (hHolds : Holds notify []) :
    notify.buffer.length ≤ notify.offset :=
  List.drop_eq_nil_iff.mp hHolds

/- The object after the first event was taken. -/
def Object.skip (notify : Object) (e : Notification) :
    Object :=
  { notify with offset := notify.offset + (16 + e.len) }

theorem holds_skip
    {notify : Object} {e : Notification}
    {events : List Notification}
    (hHolds : Holds notify (e :: events)) :
    Holds (notify.skip e) events := by
  unfold Holds Object.skip at *
  rw [← List.drop_drop, hHolds, List.flatMap_cons,
    List.drop_left' e.length_bytes]

/- The object while a read is going on or after it failed. -/
def Object.cleared (notify : Object) (size : Nat) : Object where
  buffer := resize notify.buffer size
  offset := size

theorem length_resize (buffer : List Byte) (n : Nat) :
    (resize buffer n).length = n := by
  unfold resize
  rw [List.length_append, List.length_take,
    List.length_replicate]
  omega

theorem holds_cleared (notify : Object) (size : Nat) :
    Holds (notify.cleared size) [] := by
  apply List.drop_eq_nil_of_le
  exact le_of_eq (length_resize notify.buffer size)

/- The object after a batch was read. -/
def loaded {size : Nat} (batch : Batch size) : Object where
  buffer := batch.events.flatMap Notification.bytes
  offset := 0

theorem holds_loaded {size : Nat} (batch : Batch size) :
    Holds (loaded batch) batch.events := by
  rfl

/- The buffer ends where the bytes that were read end. -/
theorem resize_write (buffer bytes : List Byte) :
    resize (write buffer 0 bytes) bytes.length = bytes := by
  unfold resize write
  rw [List.take_zero, List.nil_append, List.take_left,
    List.length_append, Nat.sub_eq_zero_of_le (by omega),
    List.replicate_zero, List.append_nil]

section Reading

variable {size : Nat} (autoRestart : Bool)

/- Interrupted reads are repeated without an effect. -/
theorem readLoop_skip
    (notify : Object) {skipped : List (Reply size)}
    (hSkipped :
      ∀ reply ∈ skipped, restarts autoRestart reply = true)
    (rest : List (Reply size)) :
    readLoop autoRestart notify (skipped ++ rest) =
      readLoop autoRestart notify rest := by
  induction skipped with
  | nil => rfl
  | cons reply skipped ih =>
      have hReply := hSkipped reply List.mem_cons_self
      have hRest :=
        ih fun r hMem =>
          hSkipped r (List.mem_cons_of_mem reply hMem)
      cases reply with
      | ok batch => cases hReply
      | error e =>
          have hHandle :
              StreamIO.handleIOError autoRestart "read()" e =
                .ok () :=
            if_pos hReply
          rw [List.cons_append, readLoop, hHandle]
          exact hRest

theorem readLoop_error
    (notify : Object) {e : Errno}
    (hFails :
      restarts autoRestart (.error e : Reply size) = false)
    (rest : List (Reply size)) :
    readLoop autoRestart notify (.error e :: rest) =
      (.raised (.apiError e (str "read()")),
        ⟨notify, rest⟩) := by
  have hHandle :
      StreamIO.handleIOError autoRestart "read()" e =
        .error (.apiError e (str "read()")) := by
    have hFalse :
        (autoRestart && e == Errno.interrupted) = false :=
      hFails
    unfold StreamIO.handleIOError
    rw [hFalse]
    rfl
  rw [readLoop, hHandle]

theorem refill_pending
    {notify : Object} {e : Notification}
    {events : List Notification}
    (hHolds : Holds notify (e :: events))
    (replies : List (Reply size)) :
    (refill autoRestart).run ⟨notify, replies⟩ =
      (.returned (), ⟨notify, replies⟩) := by
  have hLt := offset_lt hHolds
  unfold refill
  rw [Command.run_bind, Command.run_get]
  simp only [if_neg (by omega :
    ¬ notify.buffer.length ≤ notify.offset)]
  rfl

/- With nothing left in the buffer the file is read. -/
theorem refill_read
    {notify : Object} (hHolds : Holds notify [])
    (replies : List (Reply size)) :
    (refill autoRestart).run ⟨notify, replies⟩ =
      match readLoop autoRestart (notify.cleared size)
          replies with
      | (.returned n, w) =>
          if n = 0 then
            (.halted .assertion,
              { w with notify :=
                { w.notify with offset := 0 } })
          else
            (.returned (),
              { w with notify :=
                ⟨resize w.notify.buffer n, 0⟩ })
      | (.raised ex, w) => (.raised ex, w)
      | (.halted stop, w) => (.halted stop, w) := by
  have hLe := length_le_offset hHolds
  unfold refill
  rw [Command.run_bind, Command.run_get]
  simp only [if_pos hLe]
  unfold setBuffer setOffset fileRead
  simp only [Command.run_bind, Command.run_modify]
  unfold Object.cleared
  rcases readLoop autoRestart
    ⟨resize notify.buffer size, size⟩ replies
    with ⟨⟨n⟩ | ⟨ex⟩ | ⟨stop⟩, w⟩
  · simp only [Command.run_ite, Command.run_halt,
      Command.run_bind, Command.run_get, Command.run_modify]
  · rfl
  · rfl

/- What a repetition of interrupted reads comes to. -/
theorem replies_cases (replies : List (Reply size)) :
    ∃ skipped : List (Reply size),
      (∀ reply ∈ skipped,
        restarts autoRestart reply = true) ∧
      (replies = skipped ∨
        (∃ batch rest,
          replies = skipped ++ .ok batch :: rest) ∨
        ∃ e rest,
          restarts autoRestart
              (.error e : Reply size) = false ∧
            replies = skipped ++ .error e :: rest) := by
  induction replies with
  | nil =>
      exact
        ⟨[], fun _ hMem => absurd hMem List.not_mem_nil,
          Or.inl rfl⟩
  | cons reply replies ih =>
      cases reply with
      | ok batch =>
          exact
            ⟨[], fun _ hMem => absurd hMem List.not_mem_nil,
              Or.inr (Or.inl ⟨batch, replies, rfl⟩)⟩
      | error e =>
          cases hRestarts :
              restarts autoRestart
                (.error e : Reply size) with
          | false =>
              exact
                ⟨[],
                  fun _ hMem => absurd hMem List.not_mem_nil,
                  Or.inr (Or.inr ⟨e, replies, hRestarts, rfl⟩)⟩
          | true =>
              rcases ih with ⟨skipped, hSkipped, hCases⟩
              refine ⟨.error e :: skipped, ?_, ?_⟩
              · intro r hMem
                rcases List.mem_cons.mp hMem with hEq | hTail
                · rw [hEq]
                  exact hRestarts
                · exact hSkipped r hTail
              · rcases hCases with
                  hAll | ⟨batch, rest, hAll⟩ |
                  ⟨other, rest, hFails, hAll⟩
                · left
                  rw [hAll]
                · right
                  left
                  exact ⟨batch, rest, by rw [hAll]; rfl⟩
                · right
                  right
                  exact
                    ⟨other, rest, hFails, by rw [hAll]; rfl⟩

/- The first event of what the buffer then holds. -/
theorem readEvent_of_refill
    {w : World size} {notify : Object} {e : Notification}
    {events : List Notification} {replies : List (Reply size)}
    (hRefill :
      (refill autoRestart).run w =
        (.returned (), ⟨notify, replies⟩))
    (hHolds : Holds notify (e :: events)) :
    (readEvent autoRestart).run w =
      (.returned ⟨notify.offset⟩,
        ⟨notify.skip e, replies⟩) := by
  have hLoad :
      load notify.buffer (notify.offset + 12) 4 =
        some e.len := by
    unfold Holds at hHolds
    rw [List.flatMap_cons] at hHolds
    exact load_len hHolds
  unfold readEvent
  rw [Command.run_bind, hRefill]
  simp only [Command.run_bind, Command.run_get, hLoad]
  rfl

theorem refill_batch
    {notify : Object} (hHolds : Holds notify [])
    {skipped : List (Reply size)}
    (hSkipped :
      ∀ reply ∈ skipped, restarts autoRestart reply = true)
    (batch : Batch size) (rest : List (Reply size)) :
    (refill autoRestart).run
        ⟨notify, skipped ++ .ok batch :: rest⟩ =
      (.returned (), ⟨loaded batch, rest⟩) := by
  have hSome :
      (batch.events.flatMap Notification.bytes).length ≠
        0 := by
    intro hZero
    cases hEvents : batch.events with
    | nil => exact batch.nonempty hEvents
    | cons e events =>
        rw [hEvents, List.flatMap_cons, List.length_append,
          e.length_bytes] at hZero
        omega
  rw [refill_read autoRestart hHolds,
    readLoop_skip autoRestart _ hSkipped]
  unfold readLoop
  simp only [if_neg hSome, resize_write]
  rfl

/- A read that fails leaves a state that reads again. -/
theorem refill_error
    {notify : Object} (hHolds : Holds notify [])
    {skipped : List (Reply size)}
    (hSkipped :
      ∀ reply ∈ skipped, restarts autoRestart reply = true)
    {e : Errno}
    (hFails :
      restarts autoRestart (.error e : Reply size) = false)
    (rest : List (Reply size)) :
    (refill autoRestart).run
        ⟨notify, skipped ++ .error e :: rest⟩ =
      (.raised (.apiError e (str "read()")),
        ⟨notify.cleared size, rest⟩) := by
  rw [refill_read autoRestart hHolds,
    readLoop_skip autoRestart _ hSkipped,
    readLoop_error autoRestart _ hFails]

theorem refill_stopped
    {notify : Object} (hHolds : Holds notify [])
    {skipped : List (Reply size)}
    (hSkipped :
      ∀ reply ∈ skipped,
        restarts autoRestart reply = true) :
    (refill autoRestart).run ⟨notify, skipped⟩ =
      (.halted .pending, ⟨notify.cleared size, []⟩) := by
  have hSkip :=
    readLoop_skip autoRestart (notify.cleared size)
      hSkipped []
  rw [List.append_nil] at hSkip
  rw [refill_read autoRestart hHolds, hSkip]
  rfl

/- A refill that does not return ends `readEvent`. -/
theorem readEvent_of_raised
    {w w' : World size} {ex : Exn}
    (hRefill :
      (refill autoRestart).run w = (.raised ex, w')) :
    (readEvent autoRestart).run w = (.raised ex, w') := by
  unfold readEvent
  rw [Command.run_bind, hRefill]

theorem readEvent_of_halted
    {w w' : World size} {stop : Stop}
    (hRefill :
      (refill autoRestart).run w = (.halted stop, w')) :
    (readEvent autoRestart).run w = (.halted stop, w') := by
  unfold readEvent
  rw [Command.run_bind, hRefill]

/- What either function makes of `readEvent`. -/
theorem routine_of_returned
    (call : Call) {w w' : World size} {ev : Event}
    (hRead :
      (readEvent autoRestart).run w = (.returned ev, w')) :
    (call.routine autoRestart).run w =
      (.returned (some ev), w') := by
  cases call with
  | readEvent =>
      unfold Call.routine
      rw [Command.run_bind, hRead]
      rfl
  | tryReadEvent =>
      unfold Call.routine tryReadEvent
      rw [Command.run_handle, Command.run_bind, hRead]
      rfl

theorem routine_of_halted
    (call : Call) {w w' : World size} {stop : Stop}
    (hRead :
      (readEvent autoRestart).run w = (.halted stop, w')) :
    (call.routine autoRestart).run w =
      (.halted stop, w') := by
  cases call with
  | readEvent =>
      unfold Call.routine
      rw [Command.run_bind, hRead]
  | tryReadEvent =>
      unfold Call.routine tryReadEvent
      rw [Command.run_handle, Command.run_bind, hRead]

/- How a call ends if a read fails. -/
def Call.failure (call : Call) (e : Errno) :
    Outcome Stop Exn (Option Event) :=
  if call = .tryReadEvent ∧ e = .again then .returned none
  else .raised (.apiError e (str "read()"))

theorem routine_of_raised
    (call : Call) {w w' : World size} {e : Errno}
    (hRead :
      (readEvent autoRestart).run w =
        (.raised (.apiError e (str "read()")), w')) :
    (call.routine autoRestart).run w =
      (call.failure e, w') := by
  cases call with
  | readEvent =>
      unfold Call.routine
      rw [Command.run_bind, hRead]
      rfl
  | tryReadEvent =>
      unfold Call.routine tryReadEvent Call.failure
      rw [Command.run_handle, Command.run_bind, hRead]
      by_cases hAgain : e = .again
      · rw [if_pos ⟨rfl, hAgain⟩]
        simp only [if_pos hAgain, Command.run_pure]
      · rw [if_neg fun hBoth => hAgain hBoth.2]
        simp only [if_neg hAgain, Command.run_raise]

------------------------------------------------------------
-- The Queue Behind the Object
------------------------------------------------------------

def Call.failed (call : Call) (e : Errno) : Answer :=
  if call = .tryReadEvent ∧ e = .again then .nothing
  else .thrown (.apiError e (str "read()"))

/-
  What a call does to the events that are left and to the
  replies that are to come, told without the buffer.
-/
inductive Serves (call : Call) :
    List Notification → List (Reply size) → Record size →
      List Notification → List (Reply size) → Prop where
| left
    (e : Notification) (events : List Notification)
    (replies : List (Reply size)) :
    Serves call (e :: events) replies
      ⟨call, [], .event e.view⟩ events replies
| batch
    {skipped : List (Reply size)}
    (hSkipped :
      ∀ reply ∈ skipped, restarts autoRestart reply = true)
    {batch : Batch size} {e : Notification}
    {events : List Notification}
    (hEvents : batch.events = e :: events)
    (rest : List (Reply size)) :
    Serves call [] (skipped ++ .ok batch :: rest)
      ⟨call, skipped ++ [.ok batch], .event e.view⟩
      events rest
| failure
    {skipped : List (Reply size)}
    (hSkipped :
      ∀ reply ∈ skipped, restarts autoRestart reply = true)
    {e : Errno}
    (hFails :
      restarts autoRestart (.error e : Reply size) = false)
    (rest : List (Reply size)) :
    Serves call [] (skipped ++ .error e :: rest)
      ⟨call, skipped ++ [.error e], call.failed e⟩ [] rest
| stopped
    {skipped : List (Reply size)}
    (hSkipped :
      ∀ reply ∈ skipped,
        restarts autoRestart reply = true) :
    Serves call [] skipped
      ⟨call, skipped, .stopped .pending⟩ [] []

theorem answer_failure
    (buffer : List Byte) (call : Call) (e : Errno) :
    answer buffer (call.failure e) = call.failed e := by
  unfold Call.failure Call.failed
  split <;> rfl

theorem take_used (used rest : List (Reply size)) :
    (used ++ rest).take
        ((used ++ rest).length - rest.length) =
      used := by
  rw [List.length_append, Nat.add_sub_cancel, List.take_left]

theorem take_used_cons
    (skipped : List (Reply size)) (reply : Reply size)
    (rest : List (Reply size)) :
    (skipped ++ reply :: rest).take
        ((skipped ++ reply :: rest).length - rest.length) =
      skipped ++ [reply] := by
  have hUsed := take_used (skipped ++ [reply]) rest
  rw [List.append_assoc] at hUsed
  exact hUsed

/- What `perform` records of a routine. -/
theorem perform_eq
    {call : Call} {w w' : World size}
    {outcome : Outcome Stop Exn (Option Event)}
    (hRun :
      (call.routine autoRestart).run w = (outcome, w')) :
    perform autoRestart call w =
      (⟨call,
        w.replies.take
          (w.replies.length - w'.replies.length),
        answer w'.notify.buffer outcome⟩, w') := by
  unfold perform
  rw [hRun]

theorem answer_skip
    {notify : Object} {e : Notification}
    {events : List Notification}
    (hHolds : Holds notify (e :: events)) :
    answer (notify.skip e).buffer
        (.returned (some ⟨notify.offset⟩)) =
      .event e.view := by
  have hView :
      (Event.mk notify.offset).view (notify.skip e).buffer =
        some e.view := by
    unfold Holds at hHolds
    rw [List.flatMap_cons] at hHolds
    exact view_of_drop hHolds
  unfold answer
  simp only [hView]

/- The object serves its calls like the queue. -/
theorem perform_serves
    (call : Call) {w : World size}
    {events : List Notification}
    (hHolds : Holds w.notify events) :
    ∃ events',
      Serves autoRestart call events w.replies
          (perform autoRestart call w).1 events'
          (perform autoRestart call w).2.replies ∧
        Holds (perform autoRestart call w).2.notify
          events' := by
  rcases w with ⟨notify, replies⟩
  cases events with
  | cons e events =>
      have hRun :=
        routine_of_returned autoRestart call
          (readEvent_of_refill autoRestart
            (refill_pending autoRestart hHolds replies)
            hHolds)
      refine ⟨events, ?_, ?_⟩
      · rw [perform_eq autoRestart hRun,
          answer_skip hHolds]
        simp only [Nat.sub_self, List.take_zero]
        exact Serves.left e events replies
      · rw [perform_eq autoRestart hRun]
        exact holds_skip hHolds
  | nil =>
      rcases replies_cases autoRestart replies with
        ⟨skipped, hSkipped,
          hAll | ⟨batch, rest, hAll⟩ |
          ⟨e, rest, hFails, hAll⟩⟩
      · subst hAll
        have hRun :=
          routine_of_halted autoRestart call
            (readEvent_of_halted autoRestart
              (refill_stopped autoRestart hHolds hSkipped))
        refine ⟨[], ?_, ?_⟩
        · rw [perform_eq autoRestart hRun]
          simp only [List.length_nil, Nat.sub_zero,
            List.take_length]
          exact Serves.stopped hSkipped
        · rw [perform_eq autoRestart hRun]
          exact holds_cleared notify size
      · subst hAll
        cases hEvents : batch.events with
        | nil => exact absurd hEvents batch.nonempty
        | cons e events =>
            have hLoaded :
                Holds (loaded batch) (e :: events) := by
              rw [← hEvents]
              exact holds_loaded batch
            have hRun :=
              routine_of_returned autoRestart call
                (readEvent_of_refill autoRestart
                  (refill_batch autoRestart hHolds hSkipped
                    batch rest)
                  hLoaded)
            refine ⟨events, ?_, ?_⟩
            · rw [perform_eq autoRestart hRun,
                answer_skip hLoaded]
              simp only [take_used_cons]
              exact Serves.batch hSkipped hEvents rest
            · rw [perform_eq autoRestart hRun]
              exact holds_skip hLoaded
      · subst hAll
        have hRun :=
          routine_of_raised autoRestart call
            (readEvent_of_raised autoRestart
              (refill_error autoRestart hHolds hSkipped
                hFails rest))
        refine ⟨[], ?_, ?_⟩
        · rw [perform_eq autoRestart hRun, answer_failure]
          simp only [take_used_cons]
          exact Serves.failure hSkipped hFails rest
        · rw [perform_eq autoRestart hRun]
          exact holds_cleared notify size

------------------------------------------------------------
-- Any Number of Calls
------------------------------------------------------------

/-
  What calls account for that found `events` in the buffer
  and left `events'` there.
-/
structure Accounted
    (events : List Notification)
    (replies : List (Reply size))
    (records : List (Record size))
    (events' : List Notification)
    (replies' : List (Reply size)) : Prop where
  replies_eq : replies = consumed records ++ replies'
  in_order :
    (events ++ delivered (consumed records)).map
        Notification.view =
      returned records ++ events'.map Notification.view
  explained : ∀ r ∈ records, Explained autoRestart r
  stopped :
    (∃ r ∈ records, r.answer = .stopped .pending) →
      events' = [] ∧ replies' = []

variable {autoRestart}

theorem verdict_append
    {skipped : List (Reply size)}
    (hSkipped :
      ∀ reply ∈ skipped, restarts autoRestart reply = true)
    (call : Call) {reply : Reply size}
    (hDecides : restarts autoRestart reply = false)
    (a : Answer) :
    (Record.mk call (skipped ++ [reply]) a).verdict
        autoRestart =
      some reply := by
  have hNone :
      skipped.find?
          (fun reply => !restarts autoRestart reply) =
        none := by
    apply List.find?_eq_none.mpr
    intro other hMem
    simp [hSkipped other hMem]
  unfold Record.verdict
  rw [List.find?_append, hNone, Option.none_or,
    List.find?_singleton, hDecides]
  rfl

theorem verdict_skipped
    {skipped : List (Reply size)}
    (hSkipped :
      ∀ reply ∈ skipped, restarts autoRestart reply = true)
    (call : Call) (a : Answer) :
    (Record.mk call skipped a).verdict autoRestart =
      none := by
  unfold Record.verdict
  apply List.find?_eq_none.mpr
  intro other hMem
  simp [hSkipped other hMem]

/- A call without a failed read did not fail. -/
theorem explained_of_verdict
    {r : Record size}
    (hVerdict :
      ∀ e, r.verdict autoRestart ≠ some (.error e))
    (hAnswer :
      (∃ view, r.answer = .event view) ∨
        r.answer = .stopped .pending) :
    Explained autoRestart r where
  nothing_iff := by
    constructor
    · intro hNothing
      rw [hNothing] at hAnswer
      rcases hAnswer with ⟨view, hEq⟩ | hEq <;> cases hEq
    · intro hBoth
      exact absurd hBoth.2 (hVerdict _)
  thrown_iff := by
    intro ex
    constructor
    · intro hThrown
      rw [hThrown] at hAnswer
      rcases hAnswer with ⟨view, hEq⟩ | hEq <;> cases hEq
    · intro hFailed
      rcases hFailed with ⟨e, hError, -⟩
      exact absurd hError (hVerdict e)
  in_bounds := by
    intro stop hStopped
    rw [hStopped] at hAnswer
    rcases hAnswer with ⟨view, hEq⟩ | hEq
    · cases hEq
    · injection hEq

theorem explained_failure
    {skipped : List (Reply size)}
    (hSkipped :
      ∀ reply ∈ skipped, restarts autoRestart reply = true)
    (call : Call) {e : Errno}
    (hFails :
      restarts autoRestart (.error e : Reply size) =
        false) :
    Explained autoRestart
      (⟨call, skipped ++ [.error e], call.failed e⟩ :
        Record size) := by
  have hVerdict :=
    verdict_append hSkipped call hFails (call.failed e)
  by_cases hAgain : call = .tryReadEvent ∧ e = .again
  · have hNothing : call.failed e = .nothing := if_pos hAgain
    refine
      { nothing_iff := ?_
        thrown_iff := ?_
        in_bounds := ?_ }
    · constructor
      · intro _
        refine ⟨hAgain.1, ?_⟩
        rw [hVerdict, hAgain.2]
      · intro _
        exact hNothing
    · intro ex
      rw [hVerdict]
      constructor
      · intro hThrown
        simp only [hNothing] at hThrown
        cases hThrown
      · intro hFailed
        rcases hFailed with ⟨other, hOther, -, hNot⟩
        cases hOther
        exact absurd hAgain hNot
    · intro stop hStopped
      simp only [hNothing] at hStopped
      cases hStopped
  · have hThrown :
        call.failed e =
          .thrown (.apiError e (str "read()")) :=
      if_neg hAgain
    refine
      { nothing_iff := ?_
        thrown_iff := ?_
        in_bounds := ?_ }
    · rw [hVerdict]
      constructor
      · intro hNothing
        simp only [hThrown] at hNothing
        cases hNothing
      · intro hBoth
        rcases hBoth with ⟨hCall, hError⟩
        cases hError
        exact absurd ⟨hCall, rfl⟩ hAgain
    · intro ex
      rw [hVerdict]
      simp only [hThrown]
      constructor
      · intro hEq
        cases hEq
        exact ⟨e, rfl, rfl, hAgain⟩
      · intro hFailed
        rcases hFailed with ⟨other, hOther, hEx, -⟩
        cases hOther
        rw [hEx]
    · intro stop hStopped
      simp only [hThrown] at hStopped
      cases hStopped

theorem delivered_skipped
    {skipped : List (Reply size)}
    (hSkipped :
      ∀ reply ∈ skipped,
        restarts autoRestart reply = true) :
    delivered skipped = [] := by
  unfold delivered
  apply List.flatMap_eq_nil_iff.mpr
  intro reply hMem
  have hReply := hSkipped reply hMem
  cases reply with
  | ok batch => cases hReply
  | error e => rfl

theorem delivered_append
    (first second : List (Reply size)) :
    delivered (first ++ second) =
      delivered first ++ delivered second :=
  List.flatMap_append

theorem consumed_append
    (first second : List (Record size)) :
    consumed (first ++ second) =
      consumed first ++ consumed second :=
  List.flatMap_append

theorem returned_append
    (first second : List (Record size)) :
    returned (first ++ second) =
      returned first ++ returned second :=
  List.filterMap_append

@[simp] theorem consumed_singleton (r : Record size) :
    consumed [r] = r.consumed :=
  List.flatMap_singleton Record.consumed r

/- One call accounts for what it does. -/
theorem accounted_of_serves
    {call : Call} {events events' : List Notification}
    {replies replies' : List (Reply size)} {r : Record size}
    (hServes :
      Serves autoRestart call events replies r events'
        replies') :
    Accounted autoRestart events replies [r]
      events' replies' := by
  cases hServes with
  | left e events replies =>
      refine
        { replies_eq := rfl
          in_order := ?_
          explained := ?_
          stopped := ?_ }
      · simp [delivered, returned]
      · intro r hMem
        rw [List.mem_singleton.mp hMem]
        apply explained_of_verdict
        · intro e hVerdict
          cases hVerdict
        · exact Or.inl ⟨_, rfl⟩
      · intro hStopped
        simp at hStopped
  | batch hSkipped hEvents rest =>
      refine
        { replies_eq := by simp
          in_order := ?_
          explained := ?_
          stopped := ?_ }
      · rw [consumed_singleton, delivered_append,
          delivered_skipped hSkipped]
        simp [delivered, returned, hEvents]
      · intro r hMem
        rw [List.mem_singleton.mp hMem]
        apply explained_of_verdict
        · intro e hVerdict
          rw [verdict_append hSkipped call rfl] at hVerdict
          cases hVerdict
        · exact Or.inl ⟨_, rfl⟩
      · intro hStopped
        simp at hStopped
  | @failure skipped hSkipped e hFails rest =>
      have hNone :
          returned
              [(⟨call, skipped ++ [.error e],
                call.failed e⟩ : Record size)] =
            [] := by
        unfold returned Call.failed
        split <;> rfl
      refine
        { replies_eq := by simp
          in_order := ?_
          explained := ?_
          stopped := ?_ }
      · rw [consumed_singleton, delivered_append,
          delivered_skipped hSkipped, hNone]
        rfl
      · intro r hMem
        rw [List.mem_singleton.mp hMem]
        exact explained_failure hSkipped call hFails
      · intro hStopped
        rcases hStopped with ⟨r, hMem, hAnswer⟩
        rw [List.mem_singleton.mp hMem] at hAnswer
        unfold Call.failed at hAnswer
        split at hAnswer <;> cases hAnswer
  | stopped hSkipped =>
      refine
        { replies_eq := by simp
          in_order := ?_
          explained := ?_
          stopped := fun _ => ⟨rfl, rfl⟩ }
      · rw [consumed_singleton, delivered_skipped hSkipped]
        rfl
      · intro r hMem
        rw [List.mem_singleton.mp hMem]
        apply explained_of_verdict
        · intro e hVerdict
          rw [verdict_skipped hSkipped] at hVerdict
          cases hVerdict
        · exact Or.inr rfl

/- Accounts of calls that follow each other. -/
theorem Accounted.append
    {events events' events'' : List Notification}
    {replies replies' replies'' : List (Reply size)}
    {first second : List (Record size)}
    (hFirst :
      Accounted autoRestart events replies
        first events' replies')
    (hGoes : ∀ r ∈ first, r.answer ≠ .stopped .pending)
    (hSecond :
      Accounted autoRestart events' replies'
        second events'' replies'') :
    Accounted autoRestart events replies
      (first ++ second) events'' replies'' where
  replies_eq := by
    rw [consumed_append, List.append_assoc,
      ← hSecond.replies_eq]
    exact hFirst.replies_eq
  in_order := by
    rw [consumed_append, delivered_append,
      ← List.append_assoc, List.map_append, hFirst.in_order,
      returned_append, List.append_assoc, List.append_assoc,
      ← hSecond.in_order, List.map_append]
  explained := by
    intro r hMem
    rcases List.mem_append.mp hMem with hLeft | hRight
    · exact hFirst.explained r hLeft
    · exact hSecond.explained r hRight
  stopped := by
    intro hStopped
    rcases hStopped with ⟨r, hMem, hAnswer⟩
    rcases List.mem_append.mp hMem with hLeft | hRight
    · exact absurd hAnswer (hGoes r hLeft)
    · exact hSecond.stopped ⟨r, hRight, hAnswer⟩

theorem session_stopped
    {call : Call} {w : World size}
    (hStopped :
      (perform autoRestart call w).1.answer.isStopped = true)
    (calls : List Call) :
    session autoRestart (call :: calls) w =
      ([(perform autoRestart call w).1],
        (perform autoRestart call w).2) := by
  unfold session
  simp only [if_pos hStopped]

theorem session_next
    {call : Call} {w : World size}
    (hGoes :
      ¬ (perform autoRestart call w).1.answer.isStopped =
        true)
    (calls : List Call) :
    session autoRestart (call :: calls) w =
      ((perform autoRestart call w).1 ::
        (session autoRestart calls
          (perform autoRestart call w).2).1,
        (session autoRestart calls
          (perform autoRestart call w).2).2) := by
  rw [session]
  simp only [if_neg hGoes]

/- Every sequence of calls accounts for what it does. -/
theorem session_accounted (calls : List Call) :
    ∀ {w : World size} {events : List Notification},
      Holds w.notify events →
      ∃ left,
        Accounted autoRestart events
          w.replies (session autoRestart calls w).1 left
          (session autoRestart calls w).2.replies := by
  induction calls with
  | nil =>
      intro w events _
      refine
        ⟨events,
          { replies_eq := rfl
            in_order := ?_
            explained := ?_
            stopped := ?_ }⟩
      · simp [session, consumed, delivered, returned]
      · intro r hMem
        exact absurd hMem List.not_mem_nil
      · intro hStopped
        simp [session] at hStopped
  | cons call calls ih =>
      intro w events hHolds
      rcases perform_serves autoRestart call hHolds with
        ⟨events', hServes, hHolds'⟩
      have hFirst := accounted_of_serves hServes
      by_cases hStopped :
          (perform autoRestart call w).1.answer.isStopped =
            true
      · rw [session_stopped hStopped]
        exact ⟨events', hFirst⟩
      · rw [session_next hStopped]
        rcases ih hHolds' with ⟨left, hSecond⟩
        refine ⟨left, hFirst.append ?_ hSecond⟩
        intro r hMem hAnswer
        rw [List.mem_singleton.mp hMem] at hAnswer
        rw [hAnswer] at hStopped
        exact hStopped rfl

/- The calls are made in order, until one is stopped. -/
theorem calls_session (calls : List Call) (w : World size) :
    (session autoRestart calls w).1.map Record.call <+:
        calls ∧
      ((∀ r ∈ (session autoRestart calls w).1,
          r.answer.isStopped = false) →
        (session autoRestart calls w).1.map Record.call =
          calls) := by
  induction calls generalizing w with
  | nil => exact ⟨List.prefix_rfl, fun _ => rfl⟩
  | cons call calls ih =>
      by_cases hStopped :
          (perform autoRestart call w).1.answer.isStopped =
            true
      · rw [session_stopped hStopped]
        constructor
        · exact ⟨calls, rfl⟩
        · intro hNone
          have hFalse := hNone _ (List.mem_singleton.mpr rfl)
          rw [hStopped] at hFalse
          cases hFalse
      · rw [session_next hStopped]
        rcases ih (perform autoRestart call w).2 with
          ⟨hPrefix, hAll⟩
        constructor
        · exact List.cons_prefix_cons.mpr ⟨rfl, hPrefix⟩
        · intro hNone
          have hRest :=
            hAll fun r hMem =>
              hNone r (List.mem_cons_of_mem _ hMem)
          rw [List.map_cons, hRest]
          rfl

/-
  Whatever the kernel delivers or fails with, and whatever
  calls are made, the calls return the events of the kernel.
-/
theorem session_faithful
    (size : Nat) (autoRestart : Bool)
    (replies : List (Reply size)) (calls : List Call) :
    Faithful autoRestart replies calls
      (session autoRestart calls ⟨create, replies⟩).1
      (session autoRestart calls ⟨create, replies⟩).2 := by
  have hStart :
      Holds (World.mk create replies).notify [] :=
    holds_create
  rcases session_accounted calls hStart with
    ⟨left, hAccounted⟩
  rcases calls_session calls ⟨create, replies⟩ with
    ⟨hPrefix, hAll⟩
  refine
    { replies_eq := hAccounted.replies_eq
      in_order :=
        ⟨left, hAccounted.in_order, hAccounted.stopped⟩
      explained := hAccounted.explained
      calls_prefix := hPrefix
      calls_eq := ?_ }
  intro hGoes
  apply hAll
  intro r hMem
  cases hAnswer : r.answer with
  | stopped stop =>
      have hPending :=
        (hAccounted.explained r hMem).in_bounds stop hAnswer
      rw [hPending] at hAnswer
      exact absurd hAnswer (hGoes r hMem)
  | event view => rfl
  | nothing => rfl
  | thrown ex => rfl

end Reading

end INotify

end Cosmos
