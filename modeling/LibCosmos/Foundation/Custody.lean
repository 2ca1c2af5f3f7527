import Mathlib.Data.Finset.Basic
import Mathlib.Data.List.Count
import Mathlib.Logic.Function.Basic

/-
  Custody of resources. A log tells which resources were
  acquired and how they were settled, that is closed or
  handed out to somebody else; holders keep lists of
  resources. The books are sound when the log never settles
  what is not outstanding and when every outstanding
  resource is held exactly once.

  Main declarations:
    * `Custody.Entry`, `Custody.outstanding`
    * `Custody.Sound`
    * `Custody.Sound.acquire`, `Custody.Sound.settle`,
      `Custody.Sound.transfer`
    * `Custody.Trade`, `Custody.Sound.trade`
    * `Custody.not_sound_of_dropped` and its companions
    * `Custody.Sound.count_acquired`
-/

namespace Custody

------------------------------------------------------------
-- Logs
------------------------------------------------------------

/- How a resource leaves custody. -/
inductive Way where
| closed
| handedOut
deriving DecidableEq, Repr

/- One event about a resource. -/
inductive Entry (R : Type) where
| acquired (r : R)
| settled (way : Way) (r : R)
deriving DecidableEq, Repr

variable {R H : Type} [DecidableEq R]

/-
  The resources that are outstanding after a log, newest
  entry first. A log that acquires what is outstanding or
  settles what is not has no meaning.
-/
def outstanding : List (Entry R) → Option (Finset R)
| [] => some ∅
| .acquired r :: log =>
    match outstanding log with
    | some out =>
        if r ∈ out then none else some (insert r out)
    | none => none
| .settled _ r :: log =>
    match outstanding log with
    | some out =>
        if r ∈ out then some (out.erase r) else none
    | none => none

theorem outstanding_acquired
    {log : List (Entry R)} {out : Finset R} {r : R}
    (hLog : outstanding log = some out)
    (hFresh : r ∉ out) :
    outstanding (.acquired r :: log) =
      some (insert r out) := by
  simp [outstanding, hLog, hFresh]

theorem outstanding_settled
    {log : List (Entry R)} {out : Finset R} {r : R}
    (way : Way)
    (hLog : outstanding log = some out)
    (hMem : r ∈ out) :
    outstanding (.settled way r :: log) =
      some (out.erase r) := by
  simp [outstanding, hLog, hMem]

/- Only what is not outstanding can have been acquired. -/
theorem outstanding_acquired_cases
    {log : List (Entry R)} {out : Finset R} {r : R}
    (hReplay : outstanding (.acquired r :: log) = some out) :
    ∃ before,
      outstanding log = some before ∧ r ∉ before ∧
        out = insert r before := by
  cases hLog : outstanding log with
  | none => simp [outstanding, hLog] at hReplay
  | some before =>
      by_cases hMem : r ∈ before
      · simp [outstanding, hLog, hMem] at hReplay
      · simp only [outstanding, hLog, if_neg hMem,
          Option.some.injEq] at hReplay
        exact ⟨before, rfl, hMem, hReplay.symm⟩

/- Only what is outstanding can have been settled. -/
theorem outstanding_settled_cases
    {log : List (Entry R)} {out : Finset R} {r : R}
    {way : Way}
    (hReplay :
      outstanding (.settled way r :: log) = some out) :
    ∃ before,
      outstanding log = some before ∧ r ∈ before ∧
        out = before.erase r := by
  cases hLog : outstanding log with
  | none => simp [outstanding, hLog] at hReplay
  | some before =>
      by_cases hMem : r ∈ before
      · simp only [outstanding, hLog, if_pos hMem,
          Option.some.injEq] at hReplay
        exact ⟨before, rfl, hMem, hReplay.symm⟩
      · simp [outstanding, hLog, hMem] at hReplay

/-
  A resource was settled as often as it was acquired, but
  for the one time that is still outstanding.
-/
theorem count_acquired_of_outstanding
    {log : List (Entry R)} {out : Finset R}
    (hLog : outstanding log = some out)
    (r : R) :
    log.count (.acquired r) =
      log.count (.settled .closed r) +
        log.count (.settled .handedOut r) +
        if r ∈ out then 1 else 0 := by
  induction log generalizing out with
  | nil =>
      have hOut : out = ∅ := by
        simpa [outstanding] using hLog.symm
      simp [hOut]
  | cons entry log ih =>
      cases entry with
      | acquired q =>
          rcases outstanding_acquired_cases hLog with
            ⟨before, hRest, hFresh, rfl⟩
          have hBefore := ih hRest
          by_cases hSame : q = r
          · subst hSame
            simp [hFresh] at hBefore
            simp [hBefore]
          · have hOther : ¬ r = q :=
              fun hEq => hSame hEq.symm
            simp [hSame, hOther, hBefore]
      | settled way q =>
          rcases outstanding_settled_cases hLog with
            ⟨before, hRest, hMem, rfl⟩
          have hBefore := ih hRest
          by_cases hSame : q = r
          · subst hSame
            cases way <;>
              simp [hBefore, hMem] <;>
              omega
          · have hOther : ¬ r = q :=
              fun hEq => hSame hEq.symm
            simp [hSame, hOther, hBefore]

------------------------------------------------------------
-- Sound Books
------------------------------------------------------------

/-
  The log has a meaning and the holders hold exactly the
  outstanding resources, each of them once.
-/
structure Books
    (holds : H → List R)
    (log : List (Entry R))
    (out : Finset R) : Prop where
  replay : outstanding log = some out
  held : ∀ r, r ∈ out ↔ ∃ h, r ∈ holds h
  nodup : ∀ h, (holds h).Nodup
  single : ∀ h k r, r ∈ holds h → r ∈ holds k → h = k

/- The books are sound. -/
def Sound
    (holds : H → List R)
    (log : List (Entry R)) : Prop :=
  ∃ out, Books holds log out

/-
  In sound books every acquisition was settled exactly once
  or belongs to the one holder of the resource.
-/
theorem Sound.count_acquired
    {holds : H → List R} {log : List (Entry R)}
    (hSound : Sound holds log)
    (r : R) :
    ((∃ h, r ∈ holds h) ∧
      log.count (.acquired r) =
        log.count (.settled .closed r) +
          log.count (.settled .handedOut r) + 1) ∨
    ((∀ h, r ∉ holds h) ∧
      log.count (.acquired r) =
        log.count (.settled .closed r) +
          log.count (.settled .handedOut r)) := by
  rcases hSound with ⟨out, hBooks⟩
  have hCount :=
    count_acquired_of_outstanding hBooks.replay r
  by_cases hMem : r ∈ out
  · left
    exact
      ⟨(hBooks.held r).mp hMem, by simpa [hMem] using hCount⟩
  · right
    refine ⟨fun h hHeld => ?_, by simpa [hMem] using hCount⟩
    exact hMem ((hBooks.held r).mpr ⟨h, hHeld⟩)

/- A resource has one holder. -/
theorem Sound.single
    {holds : H → List R} {log : List (Entry R)}
    {h k : H} {r : R}
    (hSound : Sound holds log)
    (hHeld : r ∈ holds h)
    (hHeld' : r ∈ holds k) :
    h = k := by
  rcases hSound with ⟨out, hBooks⟩
  exact hBooks.single h k r hHeld hHeld'

theorem sound_nil
    {holds : H → List R} (hEmpty : ∀ h, holds h = []) :
    Sound holds [] := by
  refine ⟨∅, ?_⟩
  exact
    { replay := rfl
      held := by simp [hEmpty]
      nodup := by simp [hEmpty]
      single := by simp [hEmpty] }

/- The books when nothing is outstanding. -/
theorem books_empty
    {holds : H → List R} {log : List (Entry R)}
    (hLog : outstanding log = some ∅)
    (hEmpty : ∀ h, holds h = []) :
    Books holds log ∅ where
  replay := hLog
  held := by simp [hEmpty]
  nodup := by simp [hEmpty]
  single := by simp [hEmpty]

/- The books when one holder has the only resource. -/
theorem books_single
    {holds : H → List R} {log : List (Entry R)}
    {h : H} {r : R}
    (hLog : outstanding log = some {r})
    (hMine : holds h = [r])
    (hOthers : ∀ k, k ≠ h → holds k = []) :
    Books holds log {r} := by
  have hHolder : ∀ k q, q ∈ holds k → k = h ∧ q = r := by
    intro k q hHeld
    by_cases hk : k = h
    · rw [hk, hMine, List.mem_singleton] at hHeld
      exact ⟨hk, hHeld⟩
    · rw [hOthers k hk] at hHeld
      cases hHeld
  refine
    { replay := hLog
      held := ?_
      nodup := ?_
      single := ?_ }
  · intro q
    rw [Finset.mem_singleton]
    constructor
    · intro hSame
      exact ⟨h, by simp [hMine, hSame]⟩
    · rintro ⟨k, hHeld⟩
      exact (hHolder k q hHeld).2
  · intro k
    by_cases hk : k = h
    · simp [hk, hMine]
    · simp [hOthers k hk]
  · intro k l q hK hL
    exact (hHolder k q hK).1.trans (hHolder l q hL).1.symm

------------------------------------------------------------
-- What Keeps the Books Sound
------------------------------------------------------------

variable [DecidableEq H]
variable {holds : H → List R} {log : List (Entry R)}

/- A holder takes custody of a resource nobody holds. -/
theorem Sound.acquire
    (hSound : Sound holds log)
    {h : H} {r : R} {mine : List R}
    (hMine : mine.Perm (r :: holds h))
    (hFresh : ∀ k, r ∉ holds k) :
    Sound (Function.update holds h mine)
      (.acquired r :: log) := by
  rcases hSound with ⟨out, hBooks⟩
  have hNotOut : r ∉ out := by
    intro hMem
    rcases (hBooks.held r).mp hMem with ⟨k, hHeld⟩
    exact hFresh k hHeld
  have hHolds :
      ∀ k q,
        q ∈ Function.update holds h mine k ↔
          q ∈ holds k ∨ (k = h ∧ q = r) := by
    intro k q
    by_cases hk : k = h
    · subst hk
      rw [Function.update_self, hMine.mem_iff,
        List.mem_cons]
      tauto
    · simp [hk]
  refine ⟨insert r out, ?_⟩
  refine
    { replay := outstanding_acquired hBooks.replay hNotOut
      held := ?_
      nodup := ?_
      single := ?_ }
  · intro q
    simp only [Finset.mem_insert, hBooks.held q, hHolds]
    constructor
    · rintro (hEq | ⟨k, hHeld⟩)
      · exact ⟨h, Or.inr ⟨rfl, hEq⟩⟩
      · exact ⟨k, Or.inl hHeld⟩
    · rintro ⟨k, hHeld | hNew⟩
      · exact Or.inr ⟨k, hHeld⟩
      · exact Or.inl hNew.2
  · intro k
    by_cases hk : k = h
    · subst hk
      rw [Function.update_self, hMine.nodup_iff]
      exact List.nodup_cons.mpr ⟨hFresh k, hBooks.nodup k⟩
    · rw [Function.update_of_ne hk]
      exact hBooks.nodup k
  · intro k l q hK hL
    rw [hHolds] at hK hL
    rcases hK with hK | hK
    · rcases hL with hL | hL
      · exact hBooks.single k l q hK hL
      · exact absurd (hL.2 ▸ hK) (hFresh k)
    · rcases hL with hL | hL
      · exact absurd (hK.2 ▸ hL) (hFresh l)
      · exact hK.1.trans hL.1.symm

/- A holder closes or hands out one of its resources. -/
theorem Sound.settle
    (hSound : Sound holds log)
    (way : Way)
    {h : H} {r : R} {rest : List R}
    (hMine : (holds h).Perm (r :: rest)) :
    Sound (Function.update holds h rest)
      (.settled way r :: log) := by
  rcases hSound with ⟨out, hBooks⟩
  have hMem : r ∈ out :=
    (hBooks.held r).mpr ⟨h, by simp [hMine.mem_iff]⟩
  have hNodup := hBooks.nodup h
  rw [hMine.nodup_iff, List.nodup_cons] at hNodup
  have hHolds :
      ∀ k q,
        q ∈ Function.update holds h rest k ↔
          q ∈ holds k ∧ q ≠ r := by
    intro k q
    by_cases hk : k = h
    · subst hk
      rw [Function.update_self, hMine.mem_iff,
        List.mem_cons]
      constructor
      · intro hRest
        refine ⟨Or.inr hRest, ?_⟩
        rintro rfl
        exact hNodup.1 hRest
      · rintro ⟨hEq | hRest, hNe⟩
        · exact absurd hEq hNe
        · exact hRest
    · rw [Function.update_of_ne hk]
      constructor
      · intro hHeld
        refine ⟨hHeld, ?_⟩
        rintro rfl
        exact
          hk (hBooks.single k h q hHeld
            (by simp [hMine.mem_iff]))
      · exact fun hBoth => hBoth.1
  refine ⟨out.erase r, ?_⟩
  refine
    { replay :=
        outstanding_settled way hBooks.replay hMem
      held := ?_
      nodup := ?_
      single := ?_ }
  · intro q
    simp only [Finset.mem_erase, hBooks.held q, hHolds]
    constructor
    · rintro ⟨hNe, k, hHeld⟩
      exact ⟨k, hHeld, hNe⟩
    · rintro ⟨k, hHeld, hNe⟩
      exact ⟨hNe, k, hHeld⟩
  · intro k
    by_cases hk : k = h
    · subst hk
      rw [Function.update_self]
      exact hNodup.2
    · rw [Function.update_of_ne hk]
      exact hBooks.nodup k
  · intro k l q hK hL
    exact
      hBooks.single k l q ((hHolds k q).mp hK).1
        ((hHolds l q).mp hL).1

/- The order in which a holder keeps its resources. -/
theorem Sound.reorder
    (hSound : Sound holds log)
    {h : H} {mine : List R}
    (hMine : (holds h).Perm mine) :
    Sound (Function.update holds h mine) log := by
  rcases hSound with ⟨out, hBooks⟩
  have hHolds :
      ∀ k, (Function.update holds h mine k).Perm
        (holds k) := by
    intro k
    by_cases hk : k = h
    · subst hk
      rw [Function.update_self]
      exact hMine.symm
    · rw [Function.update_of_ne hk]
  refine ⟨out, ?_⟩
  exact
    { replay := hBooks.replay
      held := fun r => by
        simp only [hBooks.held r, (hHolds _).mem_iff]
      nodup := fun k =>
        (hHolds k).nodup_iff.mpr (hBooks.nodup k)
      single := fun k l r hK hL =>
        hBooks.single k l r ((hHolds k).mem_iff.mp hK)
          ((hHolds l).mem_iff.mp hL) }

/-
  What one holder can do without touching the others: from
  `mine` and `log` it comes to hold other resources under a
  longer log. It acquires only what it does not hold and
  what is free, and settles only what it holds.
-/
inductive Trade
    (free : R → Prop)
    (mine : List R)
    (log : List (Entry R)) :
    List R → List (Entry R) → Prop where
| keep {mine' : List R} :
    mine.Perm mine' →
    Trade free mine log mine' log
| acquire {mine' mine'' : List R}
    {log' : List (Entry R)} {r : R} :
    Trade free mine log mine' log' →
    free r → r ∉ mine' →
    mine''.Perm (r :: mine') →
    Trade free mine log mine'' (.acquired r :: log')
| settle {mine' mine'' : List R}
    {log' : List (Entry R)} {r : R} (way : Way) :
    Trade free mine log mine' log' →
    mine'.Perm (r :: mine'') →
    Trade free mine log mine'' (.settled way r :: log')

omit [DecidableEq R] in
theorem Trade.refl
    {free : R → Prop} {mine : List R}
    {log : List (Entry R)} :
    Trade free mine log mine log :=
  .keep (.refl mine)

omit [DecidableEq R] in
theorem Trade.reorder
    {free : R → Prop} {mine mine' mine'' : List R}
    {log log' : List (Entry R)}
    (hTrade : Trade free mine log mine' log')
    (hPerm : mine'.Perm mine'') :
    Trade free mine log mine'' log' := by
  cases hTrade with
  | keep hKeep => exact .keep (hKeep.trans hPerm)
  | acquire hBefore hFree hNot hNew =>
      exact
        .acquire hBefore hFree hNot (hPerm.symm.trans hNew)
  | settle way hBefore hOld =>
      exact
        .settle way hBefore (hOld.trans (hPerm.cons _))

/- One trade after another. -/
omit [DecidableEq R] in
theorem Trade.trans
    {free : R → Prop} {mine mine' mine'' : List R}
    {log log' log'' : List (Entry R)}
    (hFirst : Trade free mine log mine' log')
    (hSecond : Trade free mine' log' mine'' log'') :
    Trade free mine log mine'' log'' := by
  induction hSecond with
  | keep hPerm => exact hFirst.reorder hPerm
  | acquire _ hFree hNot hNew ih =>
      exact .acquire ih hFree hNot hNew
  | settle way _ hOld ih => exact .settle way ih hOld

/- Settling the first resources, one after another. -/
omit [DecidableEq R] in
theorem Trade.settleAll
    (free : R → Prop) (way : Way) (rest : List R) :
    ∀ (mine : List R) (log : List (Entry R)),
      Trade free (mine ++ rest) log rest
        ((mine.map (.settled way)).reverse ++ log)
| [], _ => .refl
| r :: mine, log => by
    have hHead : Trade free (r :: mine ++ rest) log
        (mine ++ rest) (.settled way r :: log) :=
      .settle way .refl (.refl _)
    have hTail :=
      hHead.trans
        (settleAll free way rest mine
          (.settled way r :: log))
    simpa using hTail

/- Acquiring resources one after another. -/
omit [DecidableEq R] in
theorem Trade.acquireAll
    (free : R → Prop) :
    ∀ (new mine : List R) (log : List (Entry R)),
      (∀ r ∈ new, free r) →
      (∀ r ∈ new, r ∉ mine) →
      new.Nodup →
      Trade free mine log (mine ++ new)
        ((new.map .acquired).reverse ++ log)
| [], mine, log, _, _, _ => by
    have hKeep : Trade free mine log mine log := .refl
    simpa using hKeep
| r :: new, mine, log, hFree, hNot, hNodup => by
    rw [List.nodup_cons] at hNodup
    have hHead : Trade free mine log (mine ++ [r])
        (.acquired r :: log) :=
      .acquire .refl (hFree r List.mem_cons_self)
        (hNot r List.mem_cons_self)
        (List.perm_append_comm)
    have hTail :=
      hHead.trans
        (acquireAll free new (mine ++ [r])
          (.acquired r :: log)
          (fun q hq => hFree q (List.mem_cons_of_mem _ hq))
          (fun q hq hMem => by
            rcases List.mem_append.mp hMem with hOld | hNew
            · exact
                hNot q (List.mem_cons_of_mem _ hq) hOld
            · rw [List.mem_singleton] at hNew
              exact hNodup.1 (hNew ▸ hq))
          hNodup.2)
    simpa using hTail

/-
  A holder exchanges what it has for other resources; what
  is in both lists is kept.
-/
theorem Trade.exchange
    {free : R → Prop} {old new : List R}
    (log : List (Entry R))
    (hOld : old.Nodup)
    (hNew : new.Nodup)
    (hFree : ∀ r ∈ new, r ∉ old → free r) :
    Trade free old log new
      (((new.filter (· ∉ old)).map .acquired).reverse ++
        (((old.filter (· ∉ new)).map
          (.settled .closed)).reverse ++ log)) := by
  have hSplit :
      old.Perm
        (old.filter (· ∉ new) ++ old.filter (· ∈ new)) := by
    have hPerm :=
      List.filter_append_perm (fun r => decide (r ∉ new)) old
    simpa using hPerm.symm
  have hGone : Trade free old log (old.filter (· ∈ new))
      (((old.filter (· ∉ new)).map
        (.settled .closed)).reverse ++ log) :=
    (Trade.keep hSplit).trans
      (Trade.settleAll free .closed (old.filter (· ∈ new))
        (old.filter (· ∉ new)) log)
  have hCome :=
    Trade.acquireAll free (new.filter (· ∉ old))
      (old.filter (· ∈ new))
      (((old.filter (· ∉ new)).map
        (.settled .closed)).reverse ++ log)
      (by
        intro r hMem
        simp only [List.mem_filter, decide_eq_true_eq] at hMem
        exact hFree r hMem.1 hMem.2)
      (by
        intro r hMem hKept
        simp only [List.mem_filter, decide_eq_true_eq]
          at hMem hKept
        exact hMem.2 hKept.1)
      (hNew.filter _)
  refine (hGone.trans hCome).reorder ?_
  apply (List.perm_ext_iff_of_nodup ?_ hNew).mpr
  · intro r
    simp only [List.mem_append, List.mem_filter,
      decide_eq_true_eq]
    tauto
  · refine
      List.Nodup.append (hOld.filter _) (hNew.filter _) ?_
    intro r hKept hAdded
    simp only [List.mem_filter, decide_eq_true_eq]
      at hKept hAdded
    exact hAdded.2 hKept.1

/- A trade of one holder keeps the books sound. -/
theorem Sound.trade
    {free : R → Prop} {h : H}
    {mine mine' : List R} {log' : List (Entry R)}
    (hTrade : Trade free mine log mine' log')
    (hSound : Sound holds log)
    (hMine : holds h = mine)
    (hFree : ∀ r, free r → ∀ k, k ≠ h → r ∉ holds k) :
    Sound (Function.update holds h mine') log' := by
  induction hTrade with
  | keep hPerm =>
      exact hSound.reorder (hMine ▸ hPerm)
  | @acquire mid mine'' log' r _ hIsFree hNot hPerm hMid =>
      have hNext :=
        Sound.acquire (h := h) (r := r) hMid
          (by simpa using hPerm) (by
            intro k
            by_cases hk : k = h
            · subst hk
              simpa using hNot
            · rw [Function.update_of_ne hk]
              exact hFree r hIsFree k hk)
      simpa using hNext
  | @settle mid mine'' log' r way _ hPerm hMid =>
      have hNext :=
        hMid.settle (h := h) (r := r) way
          (by simpa using hPerm)
      simpa using hNext

/- A holder passes everything to one that holds nothing. -/
theorem Sound.transfer
    (hSound : Sound holds log)
    {h k : H}
    (hNe : h ≠ k)
    (hEmpty : holds h = []) :
    Sound
      (Function.update (Function.update holds h (holds k))
        k [])
      log := by
  rcases hSound with ⟨out, hBooks⟩
  have hHolds :
      ∀ l,
        Function.update
            (Function.update holds h (holds k)) k [] l =
          if l = k then [] else
            if l = h then holds k else holds l := by
    intro l
    by_cases hk : l = k
    · subst hk
      simp
    · by_cases hh : l = h
      · subst hh
        simp [hk]
      · simp [hk, hh]
  refine ⟨out, ?_⟩
  refine
    { replay := hBooks.replay
      held := ?_
      nodup := ?_
      single := ?_ }
  · intro q
    rw [hBooks.held q]
    constructor
    · rintro ⟨l, hHeld⟩
      by_cases hk : l = k
      · subst hk
        exact ⟨h, by simp [hNe, hHeld]⟩
      · have hh : l ≠ h := by
          rintro rfl
          simp [hEmpty] at hHeld
        exact ⟨l, by simp [hk, hh, hHeld]⟩
    · rintro ⟨l, hHeld⟩
      rw [hHolds] at hHeld
      split at hHeld
      · cases hHeld
      · split at hHeld
        · exact ⟨k, hHeld⟩
        · exact ⟨l, hHeld⟩
  · intro l
    rw [hHolds]
    split
    · exact List.nodup_nil
    · split
      · exact hBooks.nodup k
      · exact hBooks.nodup l
  · intro l m q hL hM
    rw [hHolds] at hL hM
    split at hL
    · cases hL
    · next hlk =>
        split at hM
        · cases hM
        · next hmk =>
            split at hL
            · next hlh =>
                split at hM
                · next hmh => exact hlh.trans hmh.symm
                · exact
                    absurd (hBooks.single m k q hM hL) hmk
            · split at hM
              · exact
                  absurd (hBooks.single l k q hL hM) hlk
              · exact hBooks.single l m q hL hM

------------------------------------------------------------
-- What Breaks the Books
------------------------------------------------------------

/- What is not settled stays outstanding. -/
omit [DecidableEq H] in
theorem outstanding_of_not_settled
    {out out' : Finset R} {r : R}
    (hLog : outstanding log = some out)
    (hMem : r ∈ out) :
    ∀ {new : List (Entry R)},
      (∀ way, Entry.settled way r ∉ new) →
      outstanding (new ++ log) = some out' → r ∈ out'
| [], _, hReplay => by
    have hSame : out = out' :=
      Option.some.inj (hLog.symm.trans hReplay)
    exact hSame ▸ hMem
| entry :: new, hNot, hReplay => by
    have hNot' : ∀ way, Entry.settled way r ∉ new :=
      fun way hLater =>
        hNot way (List.mem_cons_of_mem _ hLater)
    cases entry with
    | acquired q =>
        rcases outstanding_acquired_cases hReplay with
          ⟨before, hRest, -, rfl⟩
        exact
          Finset.mem_insert_of_mem
            (outstanding_of_not_settled hLog hMem hNot'
              hRest)
    | settled way q =>
        rcases outstanding_settled_cases hReplay with
          ⟨before, hRest, -, rfl⟩
        have hNe : r ≠ q := by
          rintro rfl
          exact hNot way List.mem_cons_self
        exact
          Finset.mem_erase.mpr
            ⟨hNe,
              outstanding_of_not_settled hLog hMem hNot'
                hRest⟩

/- What is acquired and not settled is outstanding. -/
omit [DecidableEq H] in
theorem mem_outstanding_of_acquired
    {out' : Finset R} {r : R} :
    ∀ {new : List (Entry R)},
      Entry.acquired r ∈ new →
      (∀ way, Entry.settled way r ∉ new) →
      outstanding (new ++ log) = some out' → r ∈ out'
| entry :: new, hMem, hNot, hReplay => by
    have hNot' : ∀ way, Entry.settled way r ∉ new :=
      fun way hLater =>
        hNot way (List.mem_cons_of_mem _ hLater)
    cases entry with
    | acquired q =>
        rcases outstanding_acquired_cases hReplay with
          ⟨before, hRest, -, rfl⟩
        rcases List.mem_cons.mp hMem with hSame | hTail
        · cases hSame
          exact Finset.mem_insert_self _ _
        · exact
            Finset.mem_insert_of_mem
              (mem_outstanding_of_acquired hTail hNot' hRest)
    | settled way q =>
        rcases outstanding_settled_cases hReplay with
          ⟨before, hRest, -, rfl⟩
        have hTail : Entry.acquired r ∈ new := by
          simpa using hMem
        have hNe : r ≠ q := by
          rintro rfl
          exact hNot way List.mem_cons_self
        exact
          Finset.mem_erase.mpr
            ⟨hNe,
              mem_outstanding_of_acquired hTail hNot' hRest⟩

/-
  A resource that was held, that nobody holds any more and
  that was neither closed nor handed out.
-/
omit [DecidableEq H] in
theorem not_sound_of_dropped
    {holds' : H → List R} (new : List (Entry R))
    {h : H} {r : R}
    (hSound : Sound holds log)
    (hHeld : r ∈ holds h)
    (hNot : ∀ way, Entry.settled way r ∉ new)
    (hNobody : ∀ k, r ∉ holds' k) :
    ¬ Sound holds' (new ++ log) := by
  rcases hSound with ⟨out, hBooks⟩
  rintro ⟨out', hBooks'⟩
  have hMem : r ∈ out := (hBooks.held r).mpr ⟨h, hHeld⟩
  have hMem' : r ∈ out' :=
    outstanding_of_not_settled hBooks.replay hMem hNot
      hBooks'.replay
  rcases (hBooks'.held r).mp hMem' with ⟨k, hKept⟩
  exact hNobody k hKept

/- A resource that was acquired and that nobody holds. -/
omit [DecidableEq H] in
theorem not_sound_of_unheld
    {holds' : H → List R} {new : List (Entry R)} {r : R}
    (hAcquired : Entry.acquired r ∈ new)
    (hNot : ∀ way, Entry.settled way r ∉ new)
    (hNobody : ∀ k, r ∉ holds' k) :
    ¬ Sound holds' (new ++ log) := by
  rintro ⟨out, hBooks⟩
  have hMem : r ∈ out :=
    mem_outstanding_of_acquired hAcquired hNot hBooks.replay
  rcases (hBooks.held r).mp hMem with ⟨k, hHeld⟩
  exact hNobody k hHeld

/-
  A holder that forgets a resource which it neither closed
  nor handed out.
-/
theorem not_sound_of_forgotten
    {mine : List R} (new : List (Entry R))
    {h : H} {r : R}
    (hSound : Sound holds log)
    (hHeld : r ∈ holds h)
    (hNot : ∀ way, Entry.settled way r ∉ new)
    (hMine : r ∉ mine) :
    ¬ Sound (Function.update holds h mine)
      (new ++ log) := by
  refine not_sound_of_dropped new hSound hHeld hNot ?_
  intro k
  by_cases hk : k = h
  · subst hk
    rwa [Function.update_self]
  · rw [Function.update_of_ne hk]
    intro hKept
    exact hk (hSound.single hKept hHeld)

/-
  A holder that has a resource which it did not have before
  and which was not acquired.
-/
omit [DecidableEq H] in
theorem not_sound_of_phantom
    {holds' : H → List R} {h : H} {r : R}
    (hSound : Sound holds log)
    (hOthers : ∀ k, k ≠ h → holds' k = holds k)
    (hNew : r ∉ holds h)
    (hHeld : r ∈ holds' h) :
    ¬ Sound holds' log := by
  rcases hSound with ⟨out, hBooks⟩
  rintro ⟨out', hBooks'⟩
  have hSame : out = out' :=
    Option.some.inj
      (hBooks.replay.symm.trans hBooks'.replay)
  subst hSame
  have hMem : r ∈ out := (hBooks'.held r).mpr ⟨h, hHeld⟩
  rcases (hBooks.held r).mp hMem with ⟨k, hKept⟩
  have hk : k ≠ h := by
    rintro rfl
    exact hNew hKept
  have hKept' : r ∈ holds' k := by
    rw [hOthers k hk]
    exact hKept
  exact hk (hBooks'.single k h r hKept' hHeld)

/- A resource that somebody still has who settled it. -/
omit [DecidableEq H] in
theorem not_sound_of_kept
    {holds' : H → List R} {new : List (Entry R)}
    {h k : H} {r : R} {way : Way}
    (hSound : Sound holds log)
    (hHeld : r ∈ holds h)
    (hSettled : Entry.settled way r ∈ new)
    (hNot : Entry.acquired r ∉ new)
    (hKept : r ∈ holds' k) :
    ¬ Sound holds' (new ++ log) := by
  intro hSound'
  have hNew : 0 < new.count (.settled way r) :=
    List.count_pos_iff.mpr hSettled
  have hNone : new.count (.acquired r) = 0 :=
    List.count_eq_zero.mpr hNot
  rcases hSound.count_acquired r with
    ⟨-, hBefore⟩ | ⟨hNobody, -⟩
  · rcases hSound'.count_acquired r with
      ⟨-, hAfter⟩ | ⟨hNobody, -⟩
    · rw [List.count_append, List.count_append,
        List.count_append] at hAfter
      cases way <;> omega
    · exact hNobody k hKept
  · exact hNobody h hHeld

/- A resource that a holder has twice. -/
omit [DecidableEq H] in
theorem not_sound_of_twice
    {holds' : H → List R} {log' : List (Entry R)} {h : H}
    (hTwice : ¬ (holds' h).Nodup) :
    ¬ Sound holds' log' := by
  rintro ⟨out, hBooks⟩
  exact hTwice (hBooks.nodup h)

end Custody
