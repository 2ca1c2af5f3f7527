import LibCosmos.Foundation.Packets
import Mathlib.Algebra.Order.Ring.Nat
import Mathlib.Logic.Relation

/-
  A writer that puts messages into a connection in packets,
  a part of a message at a time, and a reader that collects
  pieces of given lengths. What a packet holds beyond what
  the reader asks for is lost.

  If the pieces of the reader are made of whole messages
  then nothing is lost: every step keeps what the reader
  comes to.

  Main declarations:
    * `Framing.Aligned`, `Framing.cut`
    * `Framing.Channel`, `Framing.Step`
    * `Framing.Step.outcome_eq`, `Framing.Step.framed`
    * `Framing.Channel.Framed.eof`
    * `Framing.Step.measure_lt`
    * `Framing.WholeRun.aligned`
-/

namespace Framing

------------------------------------------------------------
-- Groups of Sizes
------------------------------------------------------------

/- Each length is the sum of the next few sizes. -/
inductive Aligned : List Nat → List Nat → Prop
| nil (sizes : List Nat) : Aligned sizes []
| cons (group : List Nat) {sizes wants : List Nat}
    (hRest : Aligned sizes wants) :
    Aligned (group ++ sizes) (group.sum :: wants)

/- Sizes of nothing can be put in front. -/
theorem Aligned.zeros
    {zeros sizes wants : List Nat} (hZeros : zeros.sum = 0)
    (hAligned : Aligned sizes wants) :
    Aligned (zeros ++ sizes) wants := by
  cases hAligned with
  | nil => exact .nil _
  | cons group hRest =>
      have hGroup := Aligned.cons (zeros ++ group) hRest
      rw [List.sum_append, hZeros, Nat.zero_add] at hGroup
      rw [← List.append_assoc]
      exact hGroup

/- A size can be divided into parts. -/
theorem Aligned.refine
    {sizes wants : List Nat}
    (hAligned : Aligned sizes wants)
    {front back : List Nat} (parts : List Nat) {size : Nat}
    (hSizes : sizes = front ++ size :: back)
    (hParts : parts.sum = size) :
    Aligned (front ++ (parts ++ back)) wants := by
  induction hAligned generalizing front with
  | nil => exact .nil _
  | @cons group sizes wants hRest ih =>
      rcases List.append_eq_append_iff.mp hSizes with
        ⟨more, hFront, hBack⟩ | ⟨more, hGroup, hBack⟩
      · have hTail := ih hBack
        rw [hFront, List.append_assoc]
        exact .cons group hTail
      · cases more with
        | nil =>
            rw [List.nil_append] at hBack
            rw [List.append_nil] at hGroup
            have hTail := @ih [] hBack.symm
            rw [← hGroup]
            exact .cons group hTail
        | cons first more =>
            rw [List.cons_append] at hBack
            rcases List.cons_eq_cons.mp hBack with
              ⟨rfl, rfl⟩
            have hSum :
                group.sum = (front ++ (parts ++ more)).sum := by
              rw [hGroup]
              simp [hParts]
            rw [hSum]
            have hNew :=
              Aligned.cons (front ++ (parts ++ more)) hRest
            simpa only [List.append_assoc] using hNew

/- The first size is part of the first length. -/
theorem Aligned.head
    {size want : Nat} {sizes wants : List Nat}
    (hAligned : Aligned (size :: sizes) (want :: wants))
    (hWant : 0 < want) :
    size ≤ want ∧
      (want - size = 0 → Aligned sizes wants) ∧
      Aligned sizes ((want - size) :: wants) := by
  generalize hSizes : size :: sizes = all at hAligned
  generalize hWants : want :: wants = lengths at hAligned
  cases hAligned with
  | nil => cases hWants
  | @cons group rest wants' hRest =>
      cases hWants
      cases group with
      | nil => simp at hWant
      | cons first group =>
          rw [List.cons_append] at hSizes
          cases hSizes
          simp only [List.sum_cons]
          refine ⟨Nat.le_add_right _ _, ?_, ?_⟩
          · intro hZero
            exact hRest.zeros (by omega)
          · rw [Nat.add_sub_cancel_left]
            exact .cons group hRest

theorem Aligned.zero
    {sizes wants : List Nat}
    (hAligned : Aligned sizes (0 :: wants)) :
    Aligned sizes wants := by
  generalize hWants : 0 :: wants = lengths at hAligned
  cases hAligned with
  | nil => cases hWants
  | cons group hRest =>
      rcases List.cons_eq_cons.mp hWants with ⟨hSum, rfl⟩
      exact hRest.zeros hSum.symm

/- Of nothing only nothing can be made. -/
theorem Aligned.of_zeros
    {sizes wants : List Nat} {want : Nat}
    (hAligned : Aligned sizes (want :: wants))
    (hZeros : sizes.sum = 0) :
    want = 0 := by
  generalize hWants : want :: wants = lengths at hAligned
  cases hAligned with
  | nil => cases hWants
  | cons group hRest =>
      cases hWants
      rw [List.sum_append] at hZeros
      omega

------------------------------------------------------------
-- Pieces of Given Lengths
------------------------------------------------------------

variable {α : Type}

def cut : List Nat → List α → List (List α)
| [], _ => []
| n :: ns, xs => xs.take n :: cut ns (xs.drop n)

/- The pieces if `got` is the start of the first one. -/
def resume (got : List α) :
    List Nat → List α → List (List α)
| [], _ => []
| n :: ns, xs => (got ++ xs.take n) :: cut ns (xs.drop n)

@[simp] theorem resume_nil (wants : List Nat) (xs : List α) :
    resume [] wants xs = cut wants xs := by
  cases wants <;> rfl

/- A piece that is complete. -/
theorem resume_zero
    (got : List α) (wants : List Nat) (xs : List α) :
    resume got (0 :: wants) xs = got :: cut wants xs := by
  simp [resume]

/- A packet that fits goes to the piece as a whole. -/
theorem resume_append
    {got packet : List α} {want : Nat}
    (hFits : packet.length ≤ want)
    (wants : List Nat) (xs : List α) :
    resume got (want :: wants) (packet ++ xs) =
      resume (got ++ packet)
        ((want - packet.length) :: wants) xs := by
  simp only [resume, List.take_append, List.drop_append,
    List.take_of_length_le hFits,
    List.drop_of_length_le hFits, List.append_assoc,
    List.nil_append]

theorem flatten_split
    {limit : Nat} (hPos : 0 < limit) (xs : List α) :
    (Packets.split hPos xs).flatten = xs := by
  by_cases hNone : xs = []
  · rw [hNone, Packets.split_nil]
    rfl
  · have hSome := List.length_pos_iff.mpr hNone
    have hLess : (xs.drop limit).length < xs.length := by
      rw [List.length_drop]
      omega
    rw [Packets.split_of_ne hPos hNone, List.flatten_cons,
      flatten_split hPos (xs.drop limit),
      List.take_append_drop]
termination_by xs.length

theorem ne_nil_of_mem_split
    {limit : Nat} (hPos : 0 < limit) {xs packet : List α}
    (hMem : packet ∈ Packets.split hPos xs) :
    packet ≠ [] := by
  by_cases hNone : xs = []
  · rw [hNone, Packets.split_nil] at hMem
    cases hMem
  · have hSome := List.length_pos_iff.mpr hNone
    have hLess : (xs.drop limit).length < xs.length := by
      rw [List.length_drop]
      omega
    rw [Packets.split_of_ne hPos hNone] at hMem
    rcases List.mem_cons.mp hMem with rfl | hRest
    · intro hTake
      have hLength := congrArg List.length hTake
      rw [List.length_take, List.length_nil] at hLength
      omega
    · exact ne_nil_of_mem_split hPos hRest
termination_by xs.length

------------------------------------------------------------
-- The Channel
------------------------------------------------------------

/-
  The messages that are still to be written, the first one
  without what has been written of it, the packets on the
  way, whether the writer's end is open; for the reader, the
  start of its piece, the lengths that it still wants, the
  pieces that are complete and whether it has failed.
-/
structure Channel (α : Type) where
  todo : List (List α)
  queue : List (List α)
  isOpen : Bool
  got : List α
  wants : List Nat
  out : List (List α)
  failed : Bool
deriving DecidableEq

namespace Channel

def start (messages : List (List α)) (wants : List Nat) :
    Channel α where
  todo := messages
  queue := []
  isOpen := true
  got := []
  wants := wants
  out := []
  failed := false

/- The reader gets a part of its piece. -/
def receive (c : Channel α) (packet : List α) : Channel α :=
  match c.wants with
  | [] => c
  | want :: wants =>
      let got := c.got ++ packet.take want
      if want - packet.length = 0 then
        { c with got := [], wants := wants,
                 out := c.out ++ [got] }
      else
        { c with got := got,
                 wants := (want - packet.length) :: wants }

/- What is left of a message after `n` elements. -/
def left (message : List α) (n : Nat) : List (List α) :=
  if message.drop n = [] then [] else [message.drop n]

end Channel

inductive Step {limit : Nat} (hPos : 0 < limit) :
    Channel α → Channel α → Prop
| write {c : Channel α} {message : List α}
    {rest : List (List α)} {n : Nat}
    (hOpen : c.isOpen = true)
    (hTodo : c.todo = message :: rest)
    (hSome : 0 < n) (hLe : n ≤ message.length) :
    Step hPos c
      { c with
        todo := Channel.left message n ++ rest
        queue :=
          c.queue ++ Packets.split hPos (message.take n) }
| skip {c : Channel α} {rest : List (List α)}
    (hTodo : c.todo = [] :: rest) :
    Step hPos c { c with todo := rest }
| close {c : Channel α} (hOpen : c.isOpen = true) :
    Step hPos c { c with isOpen := false }
| read {c : Channel α} {packet : List α}
    {queue : List (List α)} {want : Nat} {wants : List Nat}
    (hRuns : c.failed = false)
    (hWants : c.wants = want :: wants) (hWant : 0 < want)
    (hQueue : c.queue = packet :: queue) :
    Step hPos c { c.receive packet with queue := queue }
| readNone {c : Channel α} {wants : List Nat}
    (hRuns : c.failed = false)
    (hWants : c.wants = 0 :: wants) :
    Step hPos c
      { c with got := [], wants := wants,
               out := c.out ++ [c.got] }
| eof {c : Channel α} {want : Nat} {wants : List Nat}
    (hRuns : c.failed = false)
    (hWants : c.wants = want :: wants) (hWant : 0 < want)
    (hQueue : c.queue = []) (hClosed : c.isOpen = false) :
    Step hPos c { c with failed := true }
| abort {c : Channel α} (hRuns : c.failed = false) :
    Step hPos c { c with failed := true }

namespace Channel

/- What has been written or is to be, in order. -/
def pieces (c : Channel α) : List (List α) :=
  c.queue ++ c.todo

/- What the reader comes to, if all goes on. -/
def outcome (c : Channel α) : List (List α) :=
  c.out ++ resume c.got c.wants c.pieces.flatten

structure Framed (c : Channel α) : Prop where
  aligned : Aligned (c.pieces.map List.length) c.wants
  packets : ∀ packet ∈ c.queue, packet ≠ []

theorem flatten_left (message : List α) (n : Nat) :
    (left message n).flatten = message.drop n := by
  unfold left
  split
  · next hNone =>
      rw [hNone]
      rfl
  · simp

theorem sum_left (message : List α) (n : Nat) :
    ((left message n).map List.length).sum =
      message.length - n := by
  rw [← List.length_flatten, flatten_left, List.length_drop]

theorem framed_start
    {messages : List (List α)} {wants : List Nat}
    (hAligned : Aligned (messages.map List.length) wants) :
    (start messages wants).Framed where
  aligned := hAligned
  packets := by simp [start]

theorem outcome_start
    (messages : List (List α)) (wants : List Nat) :
    (start messages wants).outcome =
      cut wants messages.flatten := by
  simp [outcome, start, pieces]

end Channel

------------------------------------------------------------
-- What Steps Keep
------------------------------------------------------------

variable {limit : Nat} {hPos : 0 < limit}
variable {c c' : Channel α}

/- Writing moves data from the writer to the way. -/
theorem flatten_write
    (queue rest : List (List α)) (message : List α)
    (n : Nat) :
    (queue ++ Packets.split hPos (message.take n) ++
        (Channel.left message n ++ rest)).flatten =
      (queue ++ message :: rest).flatten := by
  simp only [List.flatten_append, List.flatten_cons,
    flatten_split, Channel.flatten_left, List.append_assoc]
  rw [← List.append_assoc (message.take n),
    List.take_append_drop]

/- No step changes what the reader comes to. -/
theorem Step.outcome_eq
    (hStep : Step hPos c c') (hFramed : c.Framed) :
    c'.outcome = c.outcome := by
  cases hStep with
  | write hOpen hTodo hSome hLe =>
      simp only [Channel.outcome, Channel.pieces, hTodo,
        flatten_write]
  | skip hTodo =>
      simp [Channel.outcome, Channel.pieces, hTodo]
  | close hOpen => rfl
  | @read packet queue want wants hRuns hWants hWant hQueue =>
      have hAligned := hFramed.aligned
      rw [Channel.pieces, hQueue, List.cons_append,
        List.map_cons, hWants] at hAligned
      have hFits := (hAligned.head hWant).1
      have hTake := List.take_of_length_le hFits
      simp only [Channel.outcome, Channel.pieces,
        Channel.receive, hQueue, hWants, hTake,
        List.cons_append, List.flatten_cons,
        resume_append hFits]
      by_cases hFull : want - packet.length = 0
      · simp [hFull, resume_zero]
      · simp [hFull]
  | readNone hRuns hWants =>
      simp [Channel.outcome, Channel.pieces, hWants,
        resume_zero]
  | eof => rfl
  | abort => rfl

/- The packets on the way are never empty. -/
theorem Step.packets
    (hStep : Step hPos c c')
    (hPackets : ∀ packet ∈ c.queue, packet ≠ []) :
    ∀ packet ∈ c'.queue, packet ≠ [] := by
  intro packet hMem
  cases hStep with
  | write hOpen hTodo hSome hLe =>
      rcases List.mem_append.mp hMem with hOld | hNew
      · exact hPackets packet hOld
      · exact ne_nil_of_mem_split hPos hNew
  | skip hTodo => exact hPackets packet hMem
  | close hOpen => exact hPackets packet hMem
  | read hRuns hWants hWant hQueue =>
      apply hPackets packet
      rw [hQueue]
      exact List.mem_cons_of_mem _ hMem
  | readNone hRuns hWants => exact hPackets packet hMem
  | eof => exact hPackets packet hMem
  | abort => exact hPackets packet hMem

theorem aligned_receive
    {packet : List α} {queue : List (List α)} {want : Nat}
    {wants : List Nat}
    (hFramed : c.Framed)
    (hWants : c.wants = want :: wants) (hWant : 0 < want)
    (hQueue : c.queue = packet :: queue) :
    Aligned ((queue ++ c.todo).map List.length)
      (c.receive packet).wants := by
  have hAligned := hFramed.aligned
  rw [Channel.pieces, hQueue, List.cons_append,
    List.map_cons, hWants] at hAligned
  rcases hAligned.head hWant with ⟨-, hFull, hPart⟩
  unfold Channel.receive
  rw [hWants]
  by_cases hZero : want - packet.length = 0
  · simp only [hZero, if_true]
    exact hFull hZero
  · simp only [hZero, if_false]
    exact hPart

@[simp] theorem Channel.receive_todo
    (c : Channel α) (packet : List α) :
    (c.receive packet).todo = c.todo := by
  unfold Channel.receive
  split
  · rfl
  · simp only
    split <;> rfl

/- Every step keeps the pieces made of whole messages. -/
theorem Step.framed
    (hStep : Step hPos c c') (hFramed : c.Framed) :
    c'.Framed := by
  refine ⟨?_, hStep.packets hFramed.packets⟩
  have hAligned := hFramed.aligned
  cases hStep with
  | @write message rest n hOpen hTodo hSome hLe =>
      rw [Channel.pieces, hTodo, List.map_append,
        List.map_cons] at hAligned
      have hParts :
          ((Packets.split hPos (message.take n) ++
            Channel.left message n).map
              List.length).sum = message.length := by
        rw [List.map_append, List.sum_append,
          Channel.sum_left, ← List.length_flatten,
          flatten_split, List.length_take]
        omega
      have hNew := hAligned.refine _ rfl hParts
      simpa [Channel.pieces, List.append_assoc] using hNew
  | @skip rest hTodo =>
      rw [Channel.pieces, hTodo, List.map_append,
        List.map_cons] at hAligned
      have hNew := hAligned.refine [] rfl rfl
      simpa [Channel.pieces] using hNew
  | close hOpen => exact hAligned
  | read hRuns hWants hWant hQueue =>
      have hNew :=
        aligned_receive hFramed hWants hWant hQueue
      simpa [Channel.pieces] using hNew
  | readNone hRuns hWants =>
      rw [hWants] at hAligned
      exact hAligned.zero
  | eof => exact hAligned
  | abort => exact hAligned

------------------------------------------------------------
-- Runs
------------------------------------------------------------

/- What is true of every state that can be reached. -/
theorem run_outcome
    {messages : List (List α)} {wants : List Nat}
    (hAligned : Aligned (messages.map List.length) wants)
    (hRun :
      Relation.ReflTransGen (Step hPos)
        (Channel.start messages wants) c) :
    c.Framed ∧ c.outcome = cut wants messages.flatten := by
  induction hRun with
  | refl =>
      exact
        ⟨Channel.framed_start hAligned,
          Channel.outcome_start messages wants⟩
  | tail _ hStep ih =>
      exact
        ⟨hStep.framed ih.1,
          (hStep.outcome_eq ih.1).trans ih.2⟩

namespace Channel

/- The reader meets the end only if something is missing. -/
theorem Framed.eof
    (hFramed : c.Framed)
    {want : Nat} {wants : List Nat}
    (hWants : c.wants = want :: wants) (hWant : 0 < want)
    (hQueue : c.queue = []) :
    c.todo.flatten ≠ [] := by
  intro hNone
  have hAligned := hFramed.aligned
  rw [pieces, hQueue, List.nil_append, hWants] at hAligned
  have hZero := hAligned.of_zeros
    (by rw [← List.length_flatten, hNone, List.length_nil])
  omega

/- How much there is to do. -/
def measure (c : Channel α) : Nat :=
  2 * c.todo.flatten.length + c.todo.length +
    c.queue.flatten.length + c.wants.length +
      (if c.isOpen then 1 else 0) +
        (if c.failed then 0 else 1)

theorem length_left_le (message : List α) (n : Nat) :
    (left message n).length ≤ 1 := by
  unfold left
  split <;> simp

end Channel

theorem Step.measure_lt
    (hStep : Step hPos c c') (hFramed : c.Framed) :
    c'.measure < c.measure := by
  cases hStep with
  | @write message rest n hOpen hTodo hSome hLe =>
      have hLeft := Channel.length_left_le message n
      have hData := congrArg List.length
        (Channel.flatten_left message n)
      have hSplit := congrArg List.length
        (flatten_split hPos (message.take n))
      rw [List.length_drop] at hData
      rw [List.length_take] at hSplit
      simp only [Channel.measure, hTodo,
        List.flatten_append, List.flatten_cons,
        List.length_append, List.length_cons]
      omega
  | skip hTodo =>
      simp only [Channel.measure, hTodo, List.flatten_cons,
        List.nil_append, List.length_cons]
      omega
  | close hOpen => simp [Channel.measure, hOpen]
  | @read packet queue want wants hRuns hWants hWant hQueue =>
      have hSome :=
        List.length_pos_iff.mpr
          (hFramed.packets packet (by simp [hQueue]))
      unfold Channel.receive
      rw [hWants]
      simp only
      split
      · simp only [Channel.measure, hWants, hQueue,
          List.flatten_cons, List.length_append,
          List.length_cons]
        omega
      · simp only [Channel.measure, hWants, hQueue,
          List.flatten_cons, List.length_append,
          List.length_cons]
        omega
  | readNone hRuns hWants =>
      simp only [Channel.measure, hWants, List.length_cons]
      omega
  | eof hRuns => simp [Channel.measure, hRuns]
  | abort hRuns => simp [Channel.measure, hRuns]

------------------------------------------------------------
-- Other Pieces
------------------------------------------------------------

/- A message goes on its way as one packet. -/
def Undivided (c c' : Channel α) : Prop :=
  c'.todo = c.todo ∨
    ∃ message,
      c.todo = message :: c'.todo ∧
        c'.queue = c.queue ++ [message]

namespace Channel

/- The amount that is on the way or will be. -/
def supply (c : Channel α) : Nat :=
  (c.pieces.map List.length).sum

def demand (c : Channel α) : Nat :=
  c.wants.sum

theorem demand_receive
    (packet : List α) {want : Nat} {wants : List Nat}
    (hWants : c.wants = want :: wants) :
    (c.receive packet).demand =
      want - packet.length + wants.sum := by
  unfold receive demand
  rw [hWants]
  by_cases hZero : want - packet.length = 0
  · simp [hZero]
  · simp [hZero]

end Channel

/- What is too little for the reader stays too little. -/
theorem Step.shortage
    (hStep : Step hPos c c') {k : Nat}
    (hShort : c.supply + k ≤ c.demand) :
    c'.supply + k ≤ c'.demand := by
  simp only [Channel.supply, ← List.length_flatten]
    at hShort ⊢
  cases hStep with
  | write hOpen hTodo hSome hLe =>
      simp only [Channel.pieces, flatten_write] at hShort ⊢
      rw [hTodo] at hShort
      exact hShort
  | skip hTodo =>
      simp only [Channel.pieces, hTodo, List.flatten_append,
        List.flatten_cons, List.nil_append] at hShort ⊢
      exact hShort
  | close hOpen => exact hShort
  | @read packet queue want wants hRuns hWants hWant hQueue =>
      have hDemand := Channel.demand_receive packet hWants
      have hOld : c.demand = want + wants.sum := by
        rw [Channel.demand, hWants, List.sum_cons]
      simp only [Channel.pieces, hQueue, List.cons_append,
        List.flatten_cons, List.length_append] at hShort
      simp only [Channel.pieces, Channel.receive_todo]
      rw [Channel.demand] at hDemand ⊢
      simp only
      omega
  | readNone hRuns hWants =>
      rw [Channel.demand, hWants, List.sum_cons,
        Nat.zero_add] at hShort
      exact hShort
  | eof => exact hShort
  | abort => exact hShort

theorem Aligned.push
    {size want : Nat} {sizes wants : List Nat}
    (hLe : size ≤ want)
    (hAligned : Aligned sizes ((want - size) :: wants)) :
    Aligned (size :: sizes) (want :: wants) := by
  generalize hWants : (want - size) :: wants = lengths
    at hAligned
  cases hAligned with
  | nil => cases hWants
  | @cons group rest wants' hRest =>
      rcases List.cons_eq_cons.mp hWants with ⟨hSum, rfl⟩
      have hNew := Aligned.cons (size :: group) hRest
      rw [List.sum_cons, ← hSum,
        Nat.add_sub_cancel' hLe] at hNew
      exact hNew

theorem left_append_ne
    {message : List α} {n : Nat} (hSome : 0 < n)
    (hLe : n ≤ message.length) (rest : List (List α)) :
    Channel.left message n ++ rest ≠ message :: rest := by
  intro hSame
  have hLength :=
    congrArg (fun xs => xs.flatten.length) hSame
  simp only [List.flatten_append, Channel.flatten_left,
    List.flatten_cons, List.length_append,
    List.length_drop] at hLength
  omega

/- Going back by one step of whole messages. -/
theorem Step.aligned_back
    (hStep : Step hPos c c') (hWhole : Undivided c c')
    (hBalance : c'.demand ≤ c'.supply)
    (hShort : c.supply ≤ c.demand)
    (hAligned :
      Aligned (c'.pieces.map List.length) c'.wants) :
    Aligned (c.pieces.map List.length) c.wants := by
  cases hStep with
  | @write message rest n hOpen hTodo hSome hLe =>
      rcases hWhole with hSame | ⟨whole, hHead, hQueue⟩
      · rw [hTodo] at hSame
        exact absurd hSame (left_append_ne hSome hLe rest)
      · simp only [Channel.pieces] at hAligned hHead hQueue
        rw [hQueue, List.append_assoc,
          List.singleton_append, ← hHead] at hAligned
        exact hAligned
  | @skip rest hTodo =>
      rcases hWhole with hSame | ⟨whole, hHead, hQueue⟩
      · rw [hTodo] at hSame
        exact absurd hSame (by simp)
      · exact absurd hQueue (by simp)
  | close hOpen => exact hAligned
  | @read packet queue want wants hRuns hWants hWant hQueue =>
      have hDemand := Channel.demand_receive packet hWants
      have hOld : c.demand = want + wants.sum := by
        rw [Channel.demand, hWants, List.sum_cons]
      simp only [Channel.supply, Channel.pieces, hQueue,
        List.cons_append, List.map_cons, List.sum_cons,
        Channel.receive_todo, Channel.demand]
        at hBalance hShort hDemand hOld
      have hFits : packet.length ≤ want := by omega
      simp only [Channel.pieces, hQueue, hWants,
        List.cons_append, List.map_cons,
        Channel.receive_todo] at hAligned ⊢
      apply Aligned.push hFits
      unfold Channel.receive at hAligned
      rw [hWants] at hAligned
      by_cases hZero : want - packet.length = 0
      · simp only [hZero, if_true] at hAligned ⊢
        exact .cons [] hAligned
      · simp only [hZero, if_false] at hAligned
        exact hAligned
  | readNone hRuns hWants =>
      rw [hWants]
      exact .cons [] hAligned
  | eof => exact hAligned
  | abort => exact hAligned

/- Messages that are not divided, from one state on. -/
abbrev WholeRun {limit : Nat} (hPos : 0 < limit) :
    Channel α → Channel α → Prop :=
  Relation.ReflTransGen fun c c' =>
    Step hPos c c' ∧ Undivided c c'

theorem WholeRun.shortage
    (hRun : WholeRun hPos c c') {k : Nat}
    (hShort : c.supply + k ≤ c.demand) :
    c'.supply + k ≤ c'.demand := by
  induction hRun with
  | refl => exact hShort
  | tail _ hStep ih => exact hStep.1.shortage ih

/-
  If the reader gets all that it wants then its pieces are
  made of whole messages: with other pieces something is
  lost and the reader waits for more than there is.
-/
theorem WholeRun.aligned
    (hRun : WholeRun hPos c c') (hDone : c'.wants = [])
    (hAll : c.supply = c.demand) :
    Aligned (c.pieces.map List.length) c.wants := by
  induction hRun using Relation.ReflTransGen.head_induction_on with
  | refl =>
      rw [hDone]
      exact .nil _
  | @head x y hStep hRest ih =>
      have hKeep :=
        hStep.1.shortage (k := 0) (Nat.le_of_eq hAll)
      have hBalance : y.demand ≤ y.supply := by
        by_contra hShort
        have hEnd :=
          WholeRun.shortage hRest (k := 1) (by omega)
        rw [Channel.demand, hDone, List.sum_nil] at hEnd
        omega
      have hTail := ih (by omega)
      exact
        hStep.1.aligned_back hStep.2 hBalance
          (Nat.le_of_eq hAll) hTail

end Framing
