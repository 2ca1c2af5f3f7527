import Mathlib.Data.List.Basic
import Mathlib.Order.Lattice

/-
  Maps from ordered keys to values as lists of pairs in
  ascending order of their keys. An insertion fails when the
  key is there already.

  Main declarations:
    * `KeyMap.insert`, `KeyMap.Ascending`
    * `KeyMap.exists_insert`
    * `KeyMap.insert_of_key`
    * `KeyMap.find`, `KeyMap.find_eq_some_iff`
    * `KeyMap.find_foldl`
-/

namespace KeyMap

variable {K V : Type} [LinearOrder K]

/- Insert a pair at its place, unless its key is taken. -/
def insert (key : K) (value : V) :
    List (K × V) → Option (List (K × V))
| [] => some [(key, value)]
| (k, v) :: rest =>
    if key < k then
      some ((key, value) :: (k, v) :: rest)
    else if k < key then
      (insert key value rest).map ((k, v) :: ·)
    else
      none

/- The keys ascend strictly. -/
def Ascending (pairs : List (K × V)) : Prop :=
  pairs.Pairwise fun p q => p.1 < q.1

/- An insertion under a taken key fails. -/
theorem insert_of_key (key : K) (value : V) :
    ∀ {pairs : List (K × V)},
      Ascending pairs → (∃ v, (key, v) ∈ pairs) →
      insert key value pairs = none
| [], _, hKey => by simp at hKey
| (k, v) :: rest, hAscending, hKey => by
    rcases List.pairwise_cons.mp hAscending with
      ⟨hHead, hRest⟩
    rcases hKey with ⟨w, hMem⟩
    rcases List.mem_cons.mp hMem with hSame | hTail
    · cases hSame
      simp [insert]
    · have hLess : k < key := hHead _ hTail
      have hFails := insert_of_key key value hRest ⟨w, hTail⟩
      simp [insert, hLess, hLess.le, hFails]

/-
  An insertion under a new key succeeds, adds the pair and
  keeps the order.
-/
theorem exists_insert (key : K) (value : V) :
    ∀ {pairs : List (K × V)},
      Ascending pairs → (∀ p ∈ pairs, p.1 ≠ key) →
      ∃ pairs', insert key value pairs = some pairs' ∧
        Ascending pairs' ∧
        pairs'.Perm ((key, value) :: pairs)
| [], _, _ => by
    refine ⟨[(key, value)], rfl, ?_, List.Perm.refl _⟩
    exact List.pairwise_singleton _ _
| (k, v) :: rest, hAscending, hNew => by
    rcases List.pairwise_cons.mp hAscending with
      ⟨hHead, hRest⟩
    have hNe : k ≠ key := hNew (k, v) List.mem_cons_self
    by_cases hBefore : key < k
    · refine
        ⟨(key, value) :: (k, v) :: rest, ?_, ?_,
          List.Perm.refl _⟩
      · simp [insert, hBefore]
      · refine List.pairwise_cons.mpr ⟨?_, hAscending⟩
        intro p hMem
        rcases List.mem_cons.mp hMem with hSame | hTail
        · subst hSame
          exact hBefore
        · exact hBefore.trans (hHead p hTail)
    · have hLess : k < key :=
        lt_of_le_of_ne (not_lt.mp hBefore) hNe
      rcases exists_insert key value hRest
          (fun p hMem =>
            hNew p (List.mem_cons_of_mem _ hMem)) with
        ⟨rest', hInsert, hSorted, hPerm⟩
      refine ⟨(k, v) :: rest', ?_, ?_, ?_⟩
      · simp [insert, hBefore, hLess, hInsert]
      · refine List.pairwise_cons.mpr ⟨?_, hSorted⟩
        intro p hMem
        rcases List.mem_cons.mp (hPerm.mem_iff.mp hMem) with
          hSame | hTail
        · subst hSame
          exact hLess
        · exact hHead p hTail
      · exact
          (hPerm.cons (k, v)).trans
            (List.Perm.swap (key, value) (k, v) rest)

------------------------------------------------------------
-- Lookup
------------------------------------------------------------

/- The value under a key. -/
def find (key : K) (pairs : List (K × V)) : Option V :=
  (pairs.find? fun p => p.1 = key).map Prod.snd

/- Every key has one value at most. -/
theorem find_eq_some_iff
    {key : K} {value : V} :
    ∀ {pairs : List (K × V)}, Ascending pairs →
      (find key pairs = some value ↔ (key, value) ∈ pairs)
| [], _ => by simp [find]
| (k, v) :: rest, hAscending => by
    rcases List.pairwise_cons.mp hAscending with
      ⟨hHead, hRest⟩
    have hTail :
        find key rest = some value ↔ (key, value) ∈ rest :=
      find_eq_some_iff hRest
    unfold find at hTail ⊢
    by_cases hKey : k = key
    · subst hKey
      have hNot : (k, value) ∉ rest := fun hMem =>
        lt_irrefl k (hHead _ hMem)
      simp [hNot, eq_comm]
    · have hNe : key ≠ k := Ne.symm hKey
      simp [hKey, hNe, hTail]

/- A pair goes in unless there is a value already. -/
theorem find_insert
    (k : K) (v : V) (key : K)
    {pairs : List (K × V)} (hAscending : Ascending pairs) :
    Ascending ((insert k v pairs).getD pairs) ∧
      find key ((insert k v pairs).getD pairs) =
        (find key pairs).or
          (if k = key then some v else none) := by
  by_cases hTaken : ∃ w, (k, w) ∈ pairs
  · rw [insert_of_key k v hAscending hTaken,
      Option.getD_none]
    refine ⟨hAscending, ?_⟩
    by_cases hKey : k = key
    · subst hKey
      rcases hTaken with ⟨w, hMem⟩
      rw [(find_eq_some_iff hAscending).mpr hMem]
      rfl
    · rw [if_neg hKey, Option.or_none]
  · have hNew : ∀ p ∈ pairs, p.1 ≠ k := by
      rintro ⟨_, w⟩ hMem rfl
      exact hTaken ⟨w, hMem⟩
    rcases exists_insert k v hAscending hNew with
      ⟨pairs', hInsert, hSorted, hPerm⟩
    rw [hInsert, Option.getD_some]
    refine ⟨hSorted, Option.ext fun value => ?_⟩
    rw [find_eq_some_iff hSorted, hPerm.mem_iff,
      List.mem_cons]
    cases hFind : find key pairs with
    | none =>
        have hNot : (key, value) ∉ pairs := by
          rw [← find_eq_some_iff hAscending, hFind]
          exact nofun
        by_cases hKey : k = key
        · simp [hNot, hKey, eq_comm]
        · have hNe : key ≠ k := Ne.symm hKey
          simp [hNot, hKey, hNe]
    | some w =>
        have hMem :=
          (find_eq_some_iff hAscending).mp hFind
        have hNe : key ≠ k := hNew _ hMem
        rw [← find_eq_some_iff hAscending, hFind]
        simp [hNe]

/-
  After insertions in a row a key has the value it had, or
  else the first one that came under it.
-/
theorem find_foldl
    {E : Type} (key : E → K) (value : E → V) (k : K) :
    ∀ (es : List E) {pairs : List (K × V)},
      Ascending pairs →
      Ascending
          (es.foldl
            (fun m e =>
              (insert (key e) (value e) m).getD m)
            pairs) ∧
        find k
            (es.foldl
              (fun m e =>
                (insert (key e) (value e) m).getD m)
              pairs) =
          (find k pairs).or
            ((es.find? fun e => key e = k).map value)
| [], pairs, hAscending => by simp [hAscending]
| e :: es, pairs, hAscending => by
    rcases find_insert (key e) (value e) k hAscending with
      ⟨hSorted, hFirst⟩
    rcases find_foldl key value k es hSorted with
      ⟨hAll, hFind⟩
    refine ⟨hAll, ?_⟩
    rw [List.foldl_cons, hFind, hFirst, Option.or_assoc]
    by_cases hKey : key e = k
    · simp [hKey]
    · simp [hKey]

end KeyMap
