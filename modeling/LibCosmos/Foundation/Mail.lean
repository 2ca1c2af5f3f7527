import Mathlib.Logic.Function.Basic

/-
  Mail between parties with boxes. A party can claim a name,
  once, and letters go to the party that has a name. Whoever
  takes a letter out of its box gets to know the name that
  its sender has by then, also if the sender was closed.

  Kept are what was ever sent to a party and what a party
  has taken out of its box.

  Main declarations:
    * `Mail.Letter`, `Mail.Receipt`, `Mail.Post`
    * `Mail.Post.claim`, `Mail.Post.send`,
      `Mail.Post.take`, `Mail.Post.close`
    * `Mail.Sound` and that every operation keeps it
    * `Mail.Sound.owner_of_taken`
-/

namespace Mail

variable {S N D : Type}

------------------------------------------------------------
-- Operations
------------------------------------------------------------

structure Letter (S D : Type) where
  sender : S
  data : D
deriving DecidableEq, Repr

/- A letter with its sender's name when it was taken. -/
structure Receipt (S N D : Type) where
  letter : Letter S D
  name : Option N
deriving DecidableEq, Repr

structure Post (S N D : Type) where
  owner : N → Option S
  name : S → Option N
  closed : S → Bool
  box : S → List (Letter S D)
  sent : S → List (Letter S D)
  taken : S → List (Receipt S N D)

/- Nobody has a name, and nothing was sent. -/
def Post.empty : Post S N D where
  owner _ := none
  name _ := none
  closed _ := false
  box _ := []
  sent _ := []
  taken _ := []

namespace Post

variable [DecidableEq S] [DecidableEq N]

def claim (s : S) (n : N) (post : Post S N D) :
    Post S N D :=
  { post with
    owner := Function.update post.owner n (some s)
    name := Function.update post.name s (some n) }

/- Put a letter of `s` into the box of `r`. -/
def send (s r : S) (data : D) (post : Post S N D) :
    Post S N D :=
  let letter := ⟨s, data⟩
  { post with
    box := Function.update post.box r (post.box r ++ [letter])
    sent :=
      Function.update post.sent r (post.sent r ++ [letter]) }

/- Take the first letter out of a box. -/
def take (r : S) (letter : Letter S D)
    (rest : List (Letter S D)) (post : Post S N D) :
    Post S N D :=
  { post with
    box := Function.update post.box r rest
    taken :=
      Function.update post.taken r
        (post.taken r ++
          [⟨letter, post.name letter.sender⟩]) }

/-
  Close a party. The letters in its box are lost. Whether its
  name can be claimed again depends on the name.
-/
def close (freed : N → Bool) (r : S) (post : Post S N D) :
    Post S N D :=
  { post with
    owner := fun n =>
      if freed n ∧ post.owner n = some r then none
      else post.owner n
    closed := Function.update post.closed r true
    box := Function.update post.box r [] }

end Post

------------------------------------------------------------
-- What Is Kept
------------------------------------------------------------

/-
  Letters arrive in order, none twice and none that was not
  sent; an open party has the name it claimed, and a name
  that came with a letter is still its sender's.
-/
structure Sound (post : Post S N D) : Prop where
  order :
    ∀ r, post.closed r = false →
      (post.taken r).map Receipt.letter ++ post.box r =
        post.sent r
  earlier :
    ∀ r, (post.taken r).map Receipt.letter <+: post.sent r
  owned :
    ∀ s n, post.name s = some n → post.closed s = false →
      post.owner n = some s
  receipts :
    ∀ r receipt, receipt ∈ post.taken r →
      ∀ n, receipt.name = some n →
        post.name receipt.letter.sender = some n

namespace Sound

theorem empty : Sound (Post.empty : Post S N D) where
  order _ _ := rfl
  earlier _ := List.nil_prefix
  owned _ _ hName := nomatch hName
  receipts _ _ hMem := nomatch hMem

variable {post : Post S N D} (hSound : Sound post)

include hSound

/- A letter that was taken leads to its open sender. -/
theorem owner_of_taken
    {r : S} {receipt : Receipt S N D}
    (hTaken : receipt ∈ post.taken r) {n : N}
    (hName : receipt.name = some n)
    (hOpen : post.closed receipt.letter.sender = false) :
    post.owner n = some receipt.letter.sender :=
  hSound.owned receipt.letter.sender n
    (hSound.receipts r receipt hTaken n hName) hOpen

variable [DecidableEq S]

theorem claim [DecidableEq N]
    {s : S} {n : N} (hFresh : post.name s = none)
    (hFree : post.owner n = none) :
    Sound (post.claim s n) where
  order := hSound.order
  earlier := hSound.earlier
  owned s' n' hName hOpen := by
    unfold Post.claim at hName ⊢
    by_cases hSame : s' = s
    · subst hSame
      simp only [Function.update_self] at hName ⊢
      cases hName
      rw [Function.update_self]
    · simp only [Function.update_of_ne hSame] at hName ⊢
      have hOwner := hSound.owned s' n' hName hOpen
      have hNe : n' ≠ n := by
        intro hEq
        rw [hEq, hFree] at hOwner
        exact nomatch hOwner
      rw [Function.update_of_ne hNe]
      exact hOwner
  receipts r receipt hMem n' hName := by
    have hSender := hSound.receipts r receipt hMem n' hName
    have hNe : receipt.letter.sender ≠ s := by
      intro hEq
      rw [hEq, hFresh] at hSender
      exact nomatch hSender
    unfold Post.claim
    simp only [Function.update_of_ne hNe]
    exact hSender

theorem send {s r : S} (data : D) :
    Sound (post.send s r data) where
  order r' hOpen := by
    have hOrder := hSound.order r' hOpen
    unfold Post.send
    by_cases hSame : r' = r
    · subst hSame
      simp only [Function.update_self]
      rw [← List.append_assoc, hOrder]
    · simp only [Function.update_of_ne hSame]
      exact hOrder
  earlier r' := by
    have hEarlier := hSound.earlier r'
    unfold Post.send
    by_cases hSame : r' = r
    · subst hSame
      simp only [Function.update_self]
      exact hEarlier.trans (List.prefix_append _ _)
    · simp only [Function.update_of_ne hSame]
      exact hEarlier
  owned := hSound.owned
  receipts := hSound.receipts

theorem take
    {r : S} (hOpen : post.closed r = false)
    {letter : Letter S D} {rest : List (Letter S D)}
    (hBox : post.box r = letter :: rest) :
    Sound (post.take r letter rest) where
  order r' hOpen' := by
    have hOrder := hSound.order r' hOpen'
    unfold Post.take
    by_cases hSame : r' = r
    · subst hSame
      simp only [Function.update_self, List.map_append,
        List.map_cons, List.map_nil]
      rw [List.append_assoc, List.singleton_append, ← hBox]
      exact hOrder
    · simp only [Function.update_of_ne hSame]
      exact hOrder
  earlier r' := by
    have hEarlier := hSound.earlier r'
    unfold Post.take
    by_cases hSame : r' = r
    · subst hSame
      simp only [Function.update_self, List.map_append,
        List.map_cons, List.map_nil]
      refine ⟨rest, ?_⟩
      rw [List.append_assoc, List.singleton_append, ← hBox]
      exact hSound.order r' hOpen
    · simp only [Function.update_of_ne hSame]
      exact hEarlier
  owned := hSound.owned
  receipts r' receipt hMem n hName := by
    unfold Post.take at hMem
    by_cases hSame : r' = r
    · subst hSame
      simp only [Function.update_self,
        List.mem_append, List.mem_singleton] at hMem
      rcases hMem with hOld | hNew
      · exact hSound.receipts r' receipt hOld n hName
      · subst hNew
        exact hName
    · simp only [Function.update_of_ne hSame] at hMem
      exact hSound.receipts r' receipt hMem n hName

theorem close (freed : N → Bool) (r : S) :
    Sound (post.close freed r) where
  order r' hOpen := by
    unfold Post.close at hOpen ⊢
    have hNe : r' ≠ r := by
      intro hEq
      subst hEq
      simp at hOpen
    simp only [Function.update_of_ne hNe] at hOpen ⊢
    exact hSound.order r' hOpen
  earlier := hSound.earlier
  owned s n hName hOpen := by
    unfold Post.close at hOpen ⊢
    have hNe : s ≠ r := by
      intro hEq
      subst hEq
      simp at hOpen
    simp only [Function.update_of_ne hNe] at hOpen ⊢
    have hOwner := hSound.owned s n hName hOpen
    rw [if_neg]
    · exact hOwner
    · rintro ⟨_, hOther⟩
      rw [hOwner] at hOther
      exact hNe (Option.some.inj hOther)
  receipts := hSound.receipts

end Sound

end Mail
