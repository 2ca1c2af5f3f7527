import Mathlib.Data.List.Basic

/-
  A one-way connection that keeps packets apart: a writer
  puts packets into a queue and at some time closes its end,
  a reader gets one packet at a time, or learns that there
  will be no more.

  Whatever the interleaving, the reader ends in the state
  that it comes to on the packets of the writer in order.

  Main declarations:
    * `Packets.split`
    * `Packets.Reader`, `Packets.Link`, `Packets.Step`
    * `Packets.Reader.feed`
    * `Packets.Step.feed_eq`, `Packets.Step.measure_lt`,
      `Packets.Link.progress`
-/

namespace Packets

------------------------------------------------------------
-- Packets of a Limited Size
------------------------------------------------------------

section Splitting

variable {α : Type} {limit : Nat}

/- A write, as packets of at most `limit` elements. -/
def split (hPos : 0 < limit) (xs : List α) :
    List (List α) :=
  if _h : xs = [] then []
  else xs.take limit :: split hPos (xs.drop limit)
termination_by xs.length
decreasing_by
  have hSome := List.length_pos_iff.mpr _h
  rw [List.length_drop]
  omega

/- Nothing makes no packet. -/
@[simp] theorem split_nil (hPos : 0 < limit) :
    split hPos ([] : List α) = [] := by
  unfold split
  simp

theorem split_of_ne
    (hPos : 0 < limit) {xs : List α} (hSome : xs ≠ []) :
    split hPos xs =
      xs.take limit :: split hPos (xs.drop limit) := by
  rw [split, dif_neg hSome]

/- What fits makes one. -/
theorem split_of_le
    (hPos : 0 < limit) {xs : List α} (hSome : xs ≠ [])
    (hFits : xs.length ≤ limit) :
    split hPos xs = [xs] := by
  rw [split_of_ne hPos hSome, List.take_of_length_le hFits,
    List.drop_of_length_le hFits, split_nil]

end Splitting

------------------------------------------------------------
-- Readers and Links
------------------------------------------------------------

/-
  What a reader does with a packet, or when there are none
  any more. In that case it is done.
-/
structure Reader (P S : Type) where
  next : S → Option P → S
  done : S → Bool
  done_end : ∀ s, done (next s none) = true

/-
  The packets that are still to be put, those on the way,
  whether the end of the writer is open, and the reader.
-/
structure Link (P S : Type) where
  todo : List P
  queue : List P
  isOpen : Bool
  reader : S

variable {P S : Type} (R : Reader P S)

inductive Step : Link P S → Link P S → Prop where
| put (p : P) (todo queue : List P) (s : S) :
    Step ⟨p :: todo, queue, true, s⟩
      ⟨todo, queue ++ [p], true, s⟩
| close (queue : List P) (s : S) :
    Step ⟨[], queue, true, s⟩ ⟨[], queue, false, s⟩
| get (p : P) (todo queue : List P) (o : Bool) (s : S) :
    R.done s = false →
    Step ⟨todo, p :: queue, o, s⟩
      ⟨todo, queue, o, R.next s (some p)⟩
| finish (todo : List P) (s : S) :
    R.done s = false →
    Step ⟨todo, [], false, s⟩
      ⟨todo, [], false, R.next s none⟩

/- The reader on a list of packets and their end. -/
def Reader.feed : S → List P → S
| s, [] => if R.done s then s else R.next s none
| s, p :: ps =>
    if R.done s then s else feed (R.next s (some p)) ps

theorem Reader.feed_of_done
    {s : S} (hDone : R.done s = true) (ps : List P) :
    R.feed s ps = s := by
  cases ps <;> simp [feed, hDone]

namespace Link

/- What the reader comes to, if all goes on. -/
def outcome (l : Link P S) : S :=
  R.feed l.reader (l.queue ++ l.todo)

/- Only who has put everything closes the link. -/
def Whole (l : Link P S) : Prop :=
  l.isOpen = false → l.todo = []

def measure (l : Link P S) : Nat :=
  2 * l.todo.length + l.queue.length +
    (if l.isOpen then 1 else 0) +
      (if R.done l.reader then 0 else 1)

end Link

variable {R}

/- No step changes what the reader comes to. -/
theorem Step.outcome_eq
    {l l' : Link P S} (hStep : Step R l l')
    (hWhole : l.Whole) :
    l'.outcome R = l.outcome R := by
  cases hStep with
  | put p todo queue s =>
      unfold Link.outcome
      rw [List.append_assoc, List.singleton_append]
  | close queue s => rfl
  | get p todo queue o s hMore =>
      simp [Link.outcome, Reader.feed, hMore]
  | finish todo s hMore =>
      have hNone : todo = [] := hWhole rfl
      simp [Link.outcome, Reader.feed, hNone, hMore,
        R.done_end]

theorem Step.whole
    {l l' : Link P S} (hStep : Step R l l')
    (hWhole : l.Whole) : l'.Whole := by
  cases hStep with
  | put p todo queue s =>
      intro hClosed
      cases hClosed
  | close queue s => exact fun _ => rfl
  | get p todo queue o s hMore => exact hWhole
  | finish todo s hMore => exact hWhole

theorem Step.measure_lt
    {l l' : Link P S} (hStep : Step R l l') :
    l'.measure R < l.measure R := by
  cases hStep with
  | put p todo queue s =>
      simp only [Link.measure, List.length_cons,
        List.length_append, List.length_nil]
      omega
  | close queue s => simp [Link.measure]
  | get p todo queue o s hMore =>
      have hLe :
          (if R.done (R.next s (some p)) = true then 0
            else 1) ≤ 1 := by
        split <;> simp
      simp only [Link.measure, List.length_cons, hMore,
        Bool.false_eq_true, if_false]
      omega
  | finish todo s hMore =>
      simp [Link.measure, hMore, R.done_end]

/- A reader that is not done can always go on in the end. -/
theorem Link.progress
    {l : Link P S} (hWhole : l.Whole)
    (hMore : R.done l.reader = false) :
    ∃ l', Step R l l' := by
  rcases l with ⟨todo, queue, o, s⟩
  cases queue with
  | cons p queue => exact ⟨_, .get p todo queue o s hMore⟩
  | nil =>
      cases o with
      | false => exact ⟨_, .finish todo s hMore⟩
      | true =>
          cases todo with
          | nil => exact ⟨_, .close [] s⟩
          | cons p todo => exact ⟨_, .put p todo [] s⟩

/- A reader that is done has come to the outcome. -/
theorem Link.reader_of_done
    {l : Link P S} (hDone : R.done l.reader = true) :
    l.outcome R = l.reader :=
  R.feed_of_done hDone _

end Packets
