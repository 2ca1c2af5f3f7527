import Mathlib.Data.List.Perm.Basic
import Mathlib.Data.List.Pairwise

/-
  Tables of marks in which several parties hold keys, each
  of them other keys.

  Main declarations:
    * `Holding`, `Holdings.assign`
    * `Holdings.Exact`, `Holdings.Separate`
    * `Holdings.exact_take`, `Holdings.exact_release_iff`
    * `Holdings.Exact.unique`
-/

/- The keys of a party and the mark it puts on them. -/
structure Holding (κ τ : Type) where
  keys : κ → Bool
  mark : τ

namespace Holdings

variable {κ τ : Type}

/- Put a mark on some keys, or take it off. -/
def assign (table : κ → Option τ) (keys : κ → Bool)
    (mark : Option τ) : κ → Option τ :=
  fun k => if keys k then mark else table k

/- The marks are those of the parties, and older ones. -/
structure Exact
    (base : κ → Option τ) (parties : List (Holding κ τ))
    (table : κ → Option τ) : Prop where
  held :
    ∀ p ∈ parties, ∀ k, p.keys k = true →
      table k = some p.mark
  free :
    ∀ k, (∀ p ∈ parties, p.keys k = false) →
      table k = base k

/- No key is held twice. -/
structure Separate
    (base : κ → Option τ) (parties : List (Holding κ τ)) :
    Prop where
  apart :
    parties.Pairwise fun p p' =>
      ∀ k, p.keys k = true → p'.keys k = false
  fresh :
    ∀ p ∈ parties, ∀ k, p.keys k = true → base k = none

theorem exact_nil (base : κ → Option τ) :
    Exact base [] base where
  held := nofun
  free := fun _ _ => rfl

theorem separate_nil (base : κ → Option τ) :
    Separate base [] where
  apart := List.Pairwise.nil
  fresh := nofun

variable {base table : κ → Option τ}
variable {parties : List (Holding κ τ)} {p : Holding κ τ}

/- The parties determine the table. -/
theorem Exact.unique
    {table' : κ → Option τ}
    (hExact : Exact base parties table)
    (hOther : Exact base parties table') :
    table = table' := by
  funext k
  by_cases hHeld : ∃ p ∈ parties, p.keys k = true
  · rcases hHeld with ⟨p, hMem, hKey⟩
    rw [hExact.held p hMem k hKey,
      hOther.held p hMem k hKey]
  · have hFree : ∀ p ∈ parties, p.keys k = false :=
      fun p hMem =>
        Bool.eq_false_iff.mpr fun hKey =>
          hHeld ⟨p, hMem, hKey⟩
    rw [hExact.free k hFree, hOther.free k hFree]

/- The order of the parties does not matter. -/
theorem Exact.perm
    {parties' : List (Holding κ τ)}
    (hExact : Exact base parties table)
    (hPerm : parties.Perm parties') :
    Exact base parties' table where
  held := fun p hMem =>
    hExact.held p (hPerm.mem_iff.mpr hMem)
  free := fun k hFree =>
    hExact.free k fun p hMem =>
      hFree p (hPerm.mem_iff.mp hMem)

theorem Separate.perm
    {parties' : List (Holding κ τ)}
    (hSeparate : Separate base parties)
    (hPerm : parties.Perm parties') :
    Separate base parties' where
  apart := by
    refine hSeparate.apart.perm hPerm ?_
    intro p p' hApart k hKey
    by_contra hBoth
    have hNot := hApart k (Bool.not_eq_false _ ▸ hBoth)
    rw [hKey] at hNot
    cases hNot
  fresh := fun p hMem =>
    hSeparate.fresh p (hPerm.mem_iff.mpr hMem)

/- A party takes keys that have no mark. -/
theorem exact_take
    (hExact : Exact base parties table)
    (hSeparate : Separate base parties)
    (hNew : ∀ k, p.keys k = true → table k = none) :
    Exact base (p :: parties)
        (assign table p.keys (some p.mark)) ∧
      Separate base (p :: parties) := by
  have hOther :
      ∀ p' ∈ parties, ∀ k,
        p.keys k = true → p'.keys k = false := by
    intro p' hMem k hKey
    rw [Bool.eq_false_iff]
    intro hTaken
    have hMark := hExact.held p' hMem k hTaken
    rw [hNew k hKey] at hMark
    cases hMark
  constructor
  · refine ⟨?_, ?_⟩
    · intro p' hMem k hKey
      unfold assign
      rcases List.mem_cons.mp hMem with rfl | hOld
      · rw [if_pos hKey]
      · have hApart : p.keys k ≠ true := by
          intro hTaken
          rw [hOther p' hOld k hTaken] at hKey
          cases hKey
        rw [if_neg hApart]
        exact hExact.held p' hOld k hKey
    · intro k hFree
      unfold assign
      have hHead := hFree p List.mem_cons_self
      rw [if_neg (by rw [hHead]; exact nofun)]
      exact
        hExact.free k fun p' hMem =>
          hFree p' (List.mem_cons_of_mem p hMem)
  · refine ⟨?_, ?_⟩
    · rw [List.pairwise_cons]
      exact ⟨hOther, hSeparate.apart⟩
    · intro p' hMem k hKey
      rcases List.mem_cons.mp hMem with rfl | hOld
      · have hFree := hExact.free k fun p' hOld =>
          hOther p' hOld k hKey
        rw [← hFree, hNew k hKey]
      · exact hSeparate.fresh p' hOld k hKey

theorem Separate.tail
    (hSeparate : Separate base (p :: parties)) :
    Separate base parties where
  apart := (List.pairwise_cons.mp hSeparate.apart).2
  fresh := fun p' hMem =>
    hSeparate.fresh p' (List.mem_cons_of_mem p hMem)

/-
  Taking the mark off some keys releases exactly one party
  if all of its keys are among them and no others that have
  a mark.
-/
theorem exact_release_iff
    {keys : κ → Bool}
    (hExact : Exact base (p :: parties) table)
    (hSeparate : Separate base (p :: parties)) :
    Exact base parties (assign table keys none) ↔
      (∀ k, p.keys k = true → keys k = true) ∧
        ∀ k, keys k = true → p.keys k = false →
          table k = none := by
  have hOther := (List.pairwise_cons.mp hSeparate.apart).1
  constructor
  · intro hReleased
    constructor
    · intro k hKey
      by_contra hKept
      have hFree := hReleased.free k fun p' hMem =>
        hOther p' hMem k hKey
      unfold assign at hFree
      rw [if_neg hKept,
        hExact.held p List.mem_cons_self k hKey,
        hSeparate.fresh p List.mem_cons_self k hKey] at hFree
      cases hFree
    · intro k hGone hElse
      by_cases hHeld : ∃ p' ∈ parties, p'.keys k = true
      · rcases hHeld with ⟨p', hMem, hKey⟩
        have hMark := hReleased.held p' hMem k hKey
        unfold assign at hMark
        rw [if_pos hGone] at hMark
        cases hMark
      · have hFree : ∀ p' ∈ parties, p'.keys k = false :=
          fun p' hMem =>
            Bool.eq_false_iff.mpr fun hKey =>
              hHeld ⟨p', hMem, hKey⟩
        have hAfter := hReleased.free k hFree
        unfold assign at hAfter
        rw [if_pos hGone] at hAfter
        rw [hAfter]
        apply hExact.free k
        intro p' hMem
        rcases List.mem_cons.mp hMem with rfl | hOld
        · exact hElse
        · exact hFree p' hOld
  · rintro ⟨hCovers, hElse⟩
    refine ⟨?_, ?_⟩
    · intro p' hMem k hKey
      have hMark :=
        hExact.held p' (List.mem_cons_of_mem p hMem) k hKey
      have hKept : ¬ keys k = true := by
        intro hGone
        by_cases hFirst : p.keys k = true
        · rw [hOther p' hMem k hFirst] at hKey
          cases hKey
        · rw [hElse k hGone (Bool.eq_false_iff.mpr hFirst)]
            at hMark
          cases hMark
      unfold assign
      rw [if_neg hKept, hMark]
    · intro k hFree
      unfold assign
      by_cases hFirst : p.keys k = true
      · rw [if_pos (hCovers k hFirst),
          hSeparate.fresh p List.mem_cons_self k hFirst]
      · have hSame : table k = base k := by
          apply hExact.free k
          intro p' hMem
          rcases List.mem_cons.mp hMem with rfl | hOld
          · exact Bool.eq_false_iff.mpr hFirst
          · exact hFree p' hOld
        by_cases hGone : keys k = true
        · rw [if_pos hGone, ← hSame,
            hElse k hGone (Bool.eq_false_iff.mpr hFirst)]
        · rw [if_neg hGone, hSame]

end Holdings
