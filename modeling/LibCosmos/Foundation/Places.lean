import LibCosmos.Foundation.Custody

/-
  Custody of objects at places. Every place may have an
  object, and an object owns a list of resources. The rules
  say what becomes of sound books when one object changes,
  when what one owns moves to another one, and when that
  overwrites what the other one owned.

  Main declarations:
    * `Places.held`
    * `Places.sound_of_trade`, `Places.sound_of_move`
    * `Places.not_sound_of_move`,
      `Places.not_sound_of_change`,
      `Places.not_sound_of_copy`
-/

namespace Places

open Custody

variable {ι T R : Type} [DecidableEq ι]

/- What an object owns, where there is one. -/
def heldBy (owned : T → List R) : Option T → List R
| none => []
| some obj => owned obj

/- What is owned at a place. -/
def held
    (owned : T → List R)
    (objs : ι → Option T)
    (h : ι) : List R :=
  heldBy owned (objs h)

@[simp] theorem heldBy_none (owned : T → List R) :
    heldBy owned none = [] :=
  rfl

@[simp] theorem heldBy_some
    (owned : T → List R) (obj : T) :
    heldBy owned (some obj) = owned obj :=
  rfl

theorem held_update
    (owned : T → List R)
    (objs : ι → Option T)
    (h : ι) (obj : Option T) :
    held owned (Function.update objs h obj) =
      Function.update (held owned objs) h
        (heldBy owned obj) := by
  funext k
  by_cases hk : k = h
  · subst hk
    simp [held]
  · simp [held, hk]

variable [DecidableEq R]
variable {owned : T → List R} {objs : ι → Option T}
variable {log log' : List (Entry R)}

/- The object at one place is replaced by a trade. -/
theorem sound_of_trade
    {free : R → Prop} {h : ι} {obj : Option T}
    (hSound : Sound (held owned objs) log)
    (hTrade :
      Trade free (held owned objs h) log
        (heldBy owned obj) log')
    (hFree :
      ∀ r, free r → ∀ k, k ≠ h → r ∉ held owned objs k) :
    Sound (held owned (Function.update objs h obj))
      log' := by
  rw [held_update]
  exact hSound.trade hTrade rfl hFree

/- What is held after a move from `k` to `h`. -/
omit [DecidableEq R] in
theorem held_move
    {h k : ι} {a b : Option T}
    (hTaken : heldBy owned a = held owned objs k)
    (hLeft : heldBy owned b = []) :
    held owned
        (Function.update (Function.update objs h a) k b) =
      Function.update
        (Function.update (held owned objs) h
          (held owned objs k)) k [] := by
  rw [held_update, held_update, hTaken, hLeft]

/- A move to an object that owns nothing. -/
theorem sound_of_move
    {h k : ι} {a b : Option T}
    (hSound : Sound (held owned objs) log)
    (hTaken : heldBy owned a = held owned objs k)
    (hLeft : heldBy owned b = [])
    (hEmpty : held owned objs h = []) :
    Sound
      (held owned
        (Function.update (Function.update objs h a) k b))
      log := by
  rw [held_move hTaken hLeft]
  by_cases hSame : h = k
  · subst hSame
    have hKeep :
        Function.update (held owned objs) h [] =
          held owned objs := by
      rw [← hEmpty]
      exact Function.update_eq_self h _
    rw [Function.update_idem, hKeep]
    exact hSound
  · exact hSound.transfer hSame hEmpty

/-
  A move drops what its target owned, which on self-move is
  what it takes.
-/
theorem not_sound_of_move
    {h k : ι} {a b : Option T}
    (hSound : Sound (held owned objs) log)
    (hTaken : heldBy owned a = held owned objs k)
    (hLeft : heldBy owned b = [])
    (hOwner : held owned objs h ≠ []) :
    ¬ Sound
      (held owned
        (Function.update (Function.update objs h a) k b))
      log := by
  rcases List.exists_mem_of_ne_nil _ hOwner with ⟨r, hHeld⟩
  rw [held_move hTaken hLeft]
  refine
    not_sound_of_dropped [] hSound hHeld
      (fun _ => List.not_mem_nil) ?_
  intro l
  by_cases hk : l = k
  · subst hk
    simp
  · rw [Function.update_of_ne hk]
    by_cases hh : l = h
    · subst hh
      rw [Function.update_self]
      intro hKept
      exact hk (hSound.single hHeld hKept)
    · rw [Function.update_of_ne hh]
      intro hKept
      exact hh (hSound.single hKept hHeld)

/-
  An object that changes what it owns while nothing is
  acquired or settled.
-/
theorem not_sound_of_change
    {h : ι} {obj : Option T}
    (hSound : Sound (held owned objs) log)
    (hChange :
      ∃ r, ¬ (r ∈ heldBy owned obj ↔ r ∈ held owned objs h)) :
    ¬ Sound (held owned (Function.update objs h obj))
      log := by
  rcases hChange with ⟨r, hDiffer⟩
  rw [held_update]
  by_cases hBefore : r ∈ held owned objs h
  · refine
      not_sound_of_forgotten [] hSound hBefore
        (fun _ => List.not_mem_nil) ?_
    intro hAfter
    exact hDiffer ⟨fun _ => hBefore, fun _ => hAfter⟩
  · have hAfter : r ∈ heldBy owned obj := by
      by_contra hNot
      exact
        hDiffer
          ⟨fun hMem => absurd hMem hNot,
            fun hMem => absurd hMem hBefore⟩
    refine
      not_sound_of_phantom hSound
        (fun k hk => Function.update_of_ne hk _ _) hBefore ?_
    rwa [Function.update_self]

/-
  An object that is copied to another place while one of the
  two owns something: then that has two owners, or none.
-/
theorem not_sound_of_copy
    {h k : ι} {obj : Option T}
    (hSound : Sound (held owned objs) log)
    (hNe : h ≠ k)
    (hCopy : heldBy owned obj = held owned objs k)
    (hOwner :
      held owned objs h ≠ [] ∨ held owned objs k ≠ []) :
    ¬ Sound (held owned (Function.update objs h obj))
      log := by
  apply not_sound_of_change hSound
  rw [hCopy]
  by_cases hSource : held owned objs k = []
  · have hTarget : held owned objs h ≠ [] := by
      rcases hOwner with hOwner | hOwner
      · exact hOwner
      · exact absurd hSource hOwner
    rcases List.exists_mem_of_ne_nil _ hTarget with
      ⟨r, hMem⟩
    refine ⟨r, fun hSame => ?_⟩
    have hKept := hSame.mpr hMem
    rw [hSource] at hKept
    exact List.not_mem_nil hKept
  · rcases List.exists_mem_of_ne_nil _ hSource with
      ⟨r, hMem⟩
    refine ⟨r, fun hSame => ?_⟩
    exact hNe (hSound.single (hSame.mp hMem) hMem)

end Places
