import Mathlib.Logic.Function.Basic

/-
  Memory in blocks that have at most one owner each. An
  owner exchanges its block for a new one, writes to it, or
  takes over the block of another owner; what other owners
  have in their blocks stays the same.

  Main declarations:
    * `Blocks.Exclusive`
    * `Blocks.Exclusive.renew`, `Blocks.Exclusive.rewrite`,
      `Blocks.Exclusive.take`
    * `Blocks.renew_apply`, `Blocks.rewrite_apply`,
      `Blocks.take_apply`
-/

namespace Blocks

variable {ι B V : Type}

/- The contents of the blocks that are allocated. -/
abbrev Heap (B V : Type) :=
  B → Option V

/- Owned blocks are allocated and have one owner. -/
structure Exclusive
    (own : ι → Option B) (heap : Heap B V) : Prop where
  live : ∀ h b, own h = some b → heap b ≠ none
  single :
    ∀ h k b, own h = some b → own k = some b → h = k

variable [DecidableEq B]

def release (heap : Heap B V) : Option B → Heap B V
| none => heap
| some b => Function.update heap b none

def store
    (heap : Heap B V) (block : Option B) (value : V) :
    Heap B V :=
  match block with
  | none => heap
  | some b => Function.update heap b (some value)

theorem release_of_ne
    {heap : Heap B V} {block : Option B} {b : B}
    (hNe : block ≠ some b) :
    release heap block b = heap b := by
  cases block with
  | none => rfl
  | some c =>
      have hOther : b ≠ c := fun hSame => hNe (by rw [hSame])
      simp [release, hOther]

theorem store_of_ne
    {heap : Heap B V} {block : Option B} {b : B} {value : V}
    (hNe : block ≠ some b) :
    store heap block value b = heap b := by
  cases block with
  | none => rfl
  | some c =>
      have hOther : b ≠ c := fun hSame => hNe (by rw [hSame])
      simp [store, hOther]

@[simp] theorem store_some_self
    (heap : Heap B V) (b : B) (value : V) :
    store heap (some b) value b = some value := by
  simp [store]

@[simp] theorem release_some_self
    (heap : Heap B V) (b : B) :
    release heap (some b) b = none := by
  simp [release]

section Owners

variable {own : ι → Option B} {heap : Heap B V}

/- An owner has no block of another one. -/
omit [DecidableEq B] in
theorem Exclusive.ne_of_ne
    (hExclusive : Exclusive own heap)
    {h k : ι} {b : B}
    (hNe : k ≠ h)
    (hOwn : own k = some b) :
    own h ≠ some b := fun hSame =>
  hNe (hExclusive.single k h b hOwn hSame)

/- A new block is nobody's. -/
omit [DecidableEq B] in
theorem Exclusive.ne_of_fresh
    (hExclusive : Exclusive own heap)
    {block : Option B} {k : ι} {b : B}
    (hFresh : ∀ c, block = some c → heap c = none)
    (hOwn : own k = some b) :
    block ≠ some b := fun hSame =>
  hExclusive.live k b hOwn (hFresh b hSame)

theorem rewrite_apply
    (hExclusive : Exclusive own heap)
    {h k : ι} {b : B} (value : V)
    (hNe : k ≠ h)
    (hOwn : own k = some b) :
    store heap (own h) value b = heap b :=
  store_of_ne (hExclusive.ne_of_ne hNe hOwn)

theorem take_apply
    (hExclusive : Exclusive own heap)
    {h k : ι} {b : B}
    (hNe : k ≠ h)
    (hOwn : own k = some b) :
    release heap (own h) b = heap b :=
  release_of_ne (hExclusive.ne_of_ne hNe hOwn)

theorem renew_apply
    (hExclusive : Exclusive own heap)
    {block : Option B} {h k : ι} {b : B} (value : V)
    (hFresh : ∀ c, block = some c → heap c = none)
    (hNe : k ≠ h)
    (hOwn : own k = some b) :
    store (release heap (own h)) block value b = heap b := by
  rw [store_of_ne (hExclusive.ne_of_fresh hFresh hOwn)]
  exact take_apply hExclusive hNe hOwn

/- Writing to an own block. -/
theorem Exclusive.rewrite
    (hExclusive : Exclusive own heap)
    (h : ι) (value : V) :
    Exclusive own (store heap (own h) value) := by
  refine
    { live := ?_
      single := hExclusive.single }
  intro k b hOwn
  by_cases hSame : own h = some b
  · simp [hSame]
  · rw [store_of_ne hSame]
    exact hExclusive.live k b hOwn

variable [DecidableEq ι]

/- A block is given up for a new one, or for none. -/
theorem Exclusive.renew
    (hExclusive : Exclusive own heap)
    {block : Option B} (h : ι) (value : V)
    (hFresh : ∀ c, block = some c → heap c = none) :
    Exclusive (Function.update own h block)
      (store (release heap (own h)) block value) := by
  refine
    { live := ?_
      single := ?_ }
  · intro k b hOwn
    by_cases hk : k = h
    · subst hk
      rw [Function.update_self] at hOwn
      simp [hOwn]
    · rw [Function.update_of_ne hk] at hOwn
      rw [renew_apply hExclusive value hFresh hk hOwn]
      exact hExclusive.live k b hOwn
  · intro k l b hk hl
    by_cases hkh : k = h <;> by_cases hlh : l = h
    · exact hkh.trans hlh.symm
    · rw [hkh, Function.update_self] at hk
      rw [Function.update_of_ne hlh] at hl
      exact absurd hk (hExclusive.ne_of_fresh hFresh hl)
    · rw [hlh, Function.update_self] at hl
      rw [Function.update_of_ne hkh] at hk
      exact absurd hl (hExclusive.ne_of_fresh hFresh hk)
    · rw [Function.update_of_ne hkh] at hk
      rw [Function.update_of_ne hlh] at hl
      exact hExclusive.single k l b hk hl

/- A block is given up for the one of another owner. -/
theorem Exclusive.take
    (hExclusive : Exclusive own heap)
    {h k : ι}
    (hNe : k ≠ h) :
    Exclusive
      (Function.update (Function.update own h (own k)) k
        none)
      (release heap (own h)) := by
  have hApply : ∀ l b,
      Function.update (Function.update own h (own k)) k
          none l = some b →
        (l = h ∧ own k = some b) ∨
          (l ≠ h ∧ l ≠ k ∧ own l = some b) := by
    intro l b hOwn
    by_cases hlk : l = k
    · rw [hlk, Function.update_self] at hOwn
      cases hOwn
    · rw [Function.update_of_ne hlk] at hOwn
      by_cases hlh : l = h
      · rw [hlh, Function.update_self] at hOwn
        exact Or.inl ⟨hlh, hOwn⟩
      · rw [Function.update_of_ne hlh] at hOwn
        exact Or.inr ⟨hlh, hlk, hOwn⟩
  refine
    { live := ?_
      single := ?_ }
  · intro l b hOwn
    rcases hApply l b hOwn with
      ⟨-, hTaken⟩ | ⟨hlh, -, hKept⟩
    · rw [take_apply hExclusive hNe hTaken]
      exact hExclusive.live k b hTaken
    · rw [take_apply hExclusive hlh hKept]
      exact hExclusive.live l b hKept
  · intro l m b hl hm
    rcases hApply l b hl with
      ⟨hlh, hTaken⟩ | ⟨hlh, hlk, hKept⟩
    · rcases hApply m b hm with
        ⟨hmh, -⟩ | ⟨-, hmk, hKept'⟩
      · exact hlh.trans hmh.symm
      · exact
          absurd
            (hExclusive.single m k b hKept' hTaken) hmk
    · rcases hApply m b hm with
        ⟨-, hTaken'⟩ | ⟨-, -, hKept'⟩
      · exact
          absurd
            (hExclusive.single l k b hKept hTaken') hlk
      · exact hExclusive.single l m b hKept hKept'

end Owners

end Blocks
