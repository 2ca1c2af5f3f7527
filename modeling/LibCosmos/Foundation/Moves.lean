import Mathlib.Data.List.Nodup
import Mathlib.Logic.Function.Basic

/-
  Moves between the places of a store that are made one
  after the other, and when they have the effect of making
  them all at once.

  Main declarations:
    * `Moves.run`
    * `Moves.Undisturbed`
    * `Moves.parallel_iff`
-/

namespace Moves

variable {K V : Type}

structure Move (K : Type) where
  target : K
  source : K
deriving DecidableEq, Repr

variable [DecidableEq K]

/- The store after all moves, in the order of the list. -/
def run : List (Move K) → (K → V) → K → V
| [], s => s
| m :: moves, s =>
    run moves (Function.update s m.target (s m.source))

/- The earlier move leaves what the later one reads. -/
def Undisturbed
    (s : K → V) (earlier later : Move K) : Prop :=
  later.source = earlier.target →
    s earlier.source = s later.source

/- A place that is no target stays as it is. -/
theorem run_of_notMem {k : K} :
    ∀ {moves : List (Move K)} (s : K → V),
      k ∉ moves.map Move.target → run moves s k = s k
| [], _, _ => rfl
| m :: moves, s, hNotMem => by
    have hHead : k ≠ m.target := fun hSame =>
      hNotMem (hSame ▸ List.mem_cons_self)
    have hTail : k ∉ moves.map Move.target := fun hMem =>
      hNotMem (List.mem_cons_of_mem _ hMem)
    unfold run
    rw [run_of_notMem _ hTail, Function.update_of_ne hHead]

/- A move whose source is no target finds what was there. -/
theorem run_target_of_notMem {m : Move K} :
    ∀ {moves : List (Move K)} (s : K → V),
      (moves.map Move.target).Nodup →
      m ∈ moves →
      m.source ∉ moves.map Move.target →
      run moves s m.target = s m.source
| first :: moves, s, hNodup, hMem, hSource => by
    rcases List.nodup_cons.mp hNodup with ⟨hFirst, hRest⟩
    have hNe : m.source ≠ first.target := fun hSame =>
      hSource (hSame ▸ List.mem_cons_self)
    have hTail : m.source ∉ moves.map Move.target :=
      fun hThere => hSource (List.mem_cons_of_mem _ hThere)
    unfold run
    rcases List.mem_cons.mp hMem with rfl | hLater
    · rw [run_of_notMem _ hFirst, Function.update_self]
    · rw [run_target_of_notMem _ hRest hLater hTail,
        Function.update_of_ne hNe]

/-
  Moves with different targets have the effect of one
  simultaneous assignment exactly if no move overwrites what
  a later one reads with something else.
-/
theorem parallel_iff :
    ∀ {moves : List (Move K)} (s : K → V),
      (moves.map Move.target).Nodup →
      ((∀ m ∈ moves, run moves s m.target = s m.source) ↔
        moves.Pairwise (Undisturbed s))
| [], _, _ => by simp
| first :: moves, s, hNodup => by
    rcases List.nodup_cons.mp hNodup with ⟨hFirst, hRest⟩
    have hHead :
        run (first :: moves) s first.target =
          s first.source := by
      unfold run
      rw [run_of_notMem _ hFirst, Function.update_self]
    -- what later moves read when the first one was made
    have hReads :
        (∀ m ∈ moves, Undisturbed s first m) →
        ∀ m ∈ moves,
          Function.update s first.target (s first.source)
              m.source =
            s m.source := by
      intro hLater m hMem
      by_cases hSame : m.source = first.target
      · rw [hSame, Function.update_self,
          hLater m hMem hSame, hSame]
      · rw [Function.update_of_ne hSame]
    have hPairs :
        (∀ m ∈ moves, Undisturbed s first m) →
        (moves.Pairwise
            (Undisturbed
              (Function.update s first.target
                (s first.source))) ↔
          moves.Pairwise (Undisturbed s)) := by
      intro hLater
      refine
        List.Pairwise.iff_of_mem ?_
      intro a b ha hb
      unfold Undisturbed
      rw [hReads hLater a ha, hReads hLater b hb]
    have hRec :=
      parallel_iff
        (Function.update s first.target (s first.source))
        hRest
    rw [List.pairwise_cons]
    constructor
    · intro hAll
      have hLater : ∀ m ∈ moves, Undisturbed s first m := by
        intro m hMem hSource
        have hSourceFree :
            m.source ∉ moves.map Move.target := by
          rw [hSource]
          exact hFirst
        have hRead :=
          run_target_of_notMem
            (Function.update s first.target
              (s first.source))
            hRest hMem hSourceFree
        rw [hSource, Function.update_self] at hRead
        have hThere := hAll m (List.mem_cons_of_mem _ hMem)
        unfold run at hThere
        rw [← hRead, hThere]
      refine ⟨hLater, (hPairs hLater).mp (hRec.mp ?_)⟩
      intro m hMem
      rw [hReads hLater m hMem]
      exact hAll m (List.mem_cons_of_mem _ hMem)
    · rintro ⟨hLater, hTail⟩ m hMem
      rcases List.mem_cons.mp hMem with rfl | hThere
      · exact hHead
      · have hRest' :=
          hRec.mpr ((hPairs hLater).mpr hTail) m hThere
        rw [hReads hLater m hThere] at hRest'
        exact hRest'

end Moves
