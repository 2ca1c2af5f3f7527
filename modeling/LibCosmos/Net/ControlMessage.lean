import LibCosmos.Core.Types
import LibCosmos.Foundation.Buffer

/-
  Control messages in the memory behind `msg_control`: the
  `CMSG_*` arithmetic of the system headers, and the
  iteration of `ControlMessageIterator`
  (`include/net/message_header.hxx`).

  Positions are offsets from `msg_control`; the content is
  the `msg_controllen` bytes found there.

  Main declarations:
    * `ControlMessage.nextHeader`, `ControlMessage.visited`
    * `ControlMessage.visited_inside`
    * `ControlMessage.visited_of_filled`
-/

namespace Cosmos

namespace ControlMessage

------------------------------------------------------------
-- Layout
------------------------------------------------------------

/- `sizeof(struct cmsghdr)`. -/
def headerSize : Nat := 16

/- `CMSG_ALIGN`. -/
def align (n : Nat) : Nat :=
  (n + 7) / 8 * 8

/- `CMSG_LEN` and `CMSG_SPACE`. -/
def len (n : Nat) : Nat :=
  align headerSize + n

def space (n : Nat) : Nat :=
  align n + align headerSize

/- `cmsg_len` of the header at a position. -/
def cmsgLen (content : List Byte) (pos : Nat) : Nat :=
  Buffer.leValue (Buffer.read content pos 8)

theorem le_align (n : Nat) : n ≤ align n := by
  unfold align
  omega

------------------------------------------------------------
-- Iteration
------------------------------------------------------------

/- `CMSG_FIRSTHDR`. -/
def firstHeader (content : List Byte) : Option Nat :=
  if headerSize ≤ content.length then some 0 else none

/-
  `CMSG_NXTHDR`. The length of the header is trusted only
  after it was found that another header fits behind it.
-/
def nextHeader (content : List Byte) (pos : Nat) :
    Option Nat :=
  let cmsgLen := cmsgLen content pos
  let needed := headerSize + (align cmsgLen - cmsgLen)
  if cmsgLen < headerSize then none
  else if content.length - pos < needed then none
  else if content.length - pos - needed < cmsgLen then none
  else some (pos + align cmsgLen)

theorem nextHeader_eq_some_iff
    (content : List Byte) (pos q : Nat) :
    nextHeader content pos = some q ↔
      headerSize ≤ cmsgLen content pos ∧
        pos + align (cmsgLen content pos) + headerSize ≤
          content.length ∧
        q = pos + align (cmsgLen content pos) := by
  have hAlign := le_align (cmsgLen content pos)
  have hSize : headerSize = 16 := rfl
  simp only [nextHeader, Option.ite_none_left_eq_some,
    Option.some.injEq]
  omega

/- Every step moves on by a whole header at least. -/
theorem nextHeader_advances
    {content : List Byte} {pos q : Nat}
    (hNext : nextHeader content pos = some q) :
    pos + headerSize ≤ q ∧
      q + headerSize ≤ content.length := by
  rcases (nextHeader_eq_some_iff content pos q).mp hNext
    with ⟨hLen, hFits, hEq⟩
  have hAlign := le_align (cmsgLen content pos)
  omega

/- The headers from a position on. -/
def visitFrom (content : List Byte) (pos : Nat) :
    List Nat :=
  pos ::
    match _h : nextHeader content pos with
    | none => []
    | some q => visitFrom content q
termination_by content.length - pos
decreasing_by
  have hAdvance := nextHeader_advances _h
  have hSize : headerSize = 16 := rfl
  omega

/- The headers between `begin()` and `end()`. -/
def visited (content : List Byte) : List Nat :=
  match firstHeader content with
  | none => []
  | some pos => visitFrom content pos

theorem visitFrom_last
    {content : List Byte} {pos : Nat}
    (hNext : nextHeader content pos = none) :
    visitFrom content pos = [pos] := by
  rw [visitFrom]
  split
  · rfl
  · next q hSome =>
      rw [hNext] at hSome
      cases hSome

theorem visitFrom_next
    {content : List Byte} {pos q : Nat}
    (hNext : nextHeader content pos = some q) :
    visitFrom content pos = pos :: visitFrom content q := by
  rw [visitFrom]
  split
  · next hNone =>
      rw [hNext] at hNone
      cases hNone
  · next r hSome =>
      rw [hNext] at hSome
      cases hSome
      rfl

------------------------------------------------------------
-- What Is Visited
------------------------------------------------------------

theorem visitFrom_inside
    (content : List Byte) (pos : Nat)
    (hFits : pos + headerSize ≤ content.length) :
    ∀ q ∈ visitFrom content pos,
      q + headerSize ≤ content.length := by
  generalize hLeft : content.length - pos = left
  induction left using Nat.strongRecOn generalizing pos with
  | ind left ih =>
      intro q hMem
      cases hNext : nextHeader content pos with
      | none =>
          rw [visitFrom_last hNext, List.mem_singleton]
            at hMem
          rw [hMem]
          exact hFits
      | some r =>
          have hAdvance := nextHeader_advances hNext
          have hSize : headerSize = 16 := rfl
          rw [visitFrom_next hNext, List.mem_cons] at hMem
          rcases hMem with hHead | hTail
          · rw [hHead]
            exact hFits
          · exact
              ih (content.length - r) (by omega) r
                hAdvance.2 rfl q hTail

/-
  Whatever the bytes are, every visited header lies in the
  content.
-/
theorem visited_inside
    (content : List Byte) :
    ∀ pos ∈ visited content,
      pos + headerSize ≤ content.length := by
  intro pos hMem
  unfold visited firstHeader at hMem
  by_cases hFits : headerSize ≤ content.length
  · rw [if_pos hFits] at hMem
    exact
      visitFrom_inside content 0 (by omega) pos hMem
  · rw [if_neg hFits] at hMem
    cases hMem

theorem visited_eq_nil_iff (content : List Byte) :
    visited content = [] ↔ content.length < headerSize := by
  unfold visited firstHeader
  by_cases hFits : headerSize ≤ content.length
  · rw [if_pos hFits]
    constructor
    · intro hNil
      unfold visitFrom at hNil
      cases hNil
    · intro hShort
      omega
  · rw [if_neg hFits]
    constructor
    · intro _
      omega
    · intro _
      rfl

/-
  Whole messages from a position to the end of the content,
  as the kernel lays them out: each is padded, the last one
  as far as the space goes.
-/
inductive LaidOut (content : List Byte) :
    Nat → List Nat → Prop where
| last {pos : Nat} :
    headerSize ≤ cmsgLen content pos →
    pos + cmsgLen content pos ≤ content.length →
    content.length ≤ pos + align (cmsgLen content pos) →
    LaidOut content pos [pos]
| next {pos : Nat} {starts : List Nat} :
    headerSize ≤ cmsgLen content pos →
    LaidOut content (pos + align (cmsgLen content pos))
      starts →
    LaidOut content pos (pos :: starts)

/- Nothing, or whole messages from the start on. -/
def Filled (content : List Byte) (starts : List Nat) :
    Prop :=
  (content = [] ∧ starts = []) ∨ LaidOut content 0 starts

theorem LaidOut.fits
    {content : List Byte} {pos : Nat} {starts : List Nat}
    (hLaid : LaidOut content pos starts) :
    pos + headerSize ≤ content.length := by
  induction hLaid with
  | last hLen hFits hEnd => omega
  | next hLen _ ih =>
      rename_i pos _ _
      have hAlign := le_align (cmsgLen content pos)
      omega

/- Every message that was laid out is inside, as a whole. -/
theorem LaidOut.inside
    {content : List Byte} {pos : Nat} {starts : List Nat}
    (hLaid : LaidOut content pos starts) :
    ∀ q ∈ starts,
      headerSize ≤ cmsgLen content q ∧
        q + cmsgLen content q ≤ content.length := by
  induction hLaid with
  | last hLen hFits hEnd =>
      intro q hMem
      rw [List.mem_singleton] at hMem
      rw [hMem]
      exact ⟨hLen, hFits⟩
  | next hLen hRest ih =>
      rename_i pos _
      intro q hMem
      rcases List.mem_cons.mp hMem with hHead | hTail
      · have hFits := hRest.fits
        have hAlign := le_align (cmsgLen content pos)
        rw [hHead]
        exact ⟨hLen, by omega⟩
      · exact ih q hTail

theorem LaidOut.visitFrom_eq
    {content : List Byte} {pos : Nat} {starts : List Nat}
    (hLaid : LaidOut content pos starts) :
    visitFrom content pos = starts := by
  induction hLaid with
  | last hLen hFits hEnd =>
      apply visitFrom_last
      rw [Option.eq_none_iff_forall_ne_some]
      intro q hNext
      have hAdvance := nextHeader_advances hNext
      rcases (nextHeader_eq_some_iff _ _ _).mp hNext
        with ⟨-, hMore, -⟩
      have hSize : headerSize = 16 := rfl
      omega
  | next hLen hRest ih =>
      rw [visitFrom_next
        ((nextHeader_eq_some_iff _ _ _).mpr
          ⟨hLen, hRest.fits, rfl⟩), ih]

/-
  Of a content that the kernel filled exactly the messages
  are visited, in order.
-/
theorem visited_of_filled
    {content : List Byte} {starts : List Nat}
    (hFilled : Filled content starts) :
    visited content = starts := by
  rcases hFilled with ⟨hContent, hStarts⟩ | hLaid
  · rw [hStarts, visited_eq_nil_iff, hContent]
    decide
  · have hFits := hLaid.fits
    unfold visited firstHeader
    rw [if_pos (by omega)]
    exact hLaid.visitFrom_eq

/- Every message of a filled content is inside. -/
theorem Filled.inside
    {content : List Byte} {starts : List Nat}
    (hFilled : Filled content starts) :
    ∀ q ∈ starts,
      headerSize ≤ cmsgLen content q ∧
        q + cmsgLen content q ≤ content.length := by
  rcases hFilled with ⟨_, hStarts⟩ | hLaid
  · rw [hStarts]
    intro q hMem
    cases hMem
  · exact hLaid.inside

end ControlMessage

end Cosmos
