import Mathlib.Logic.Basic

/-
  Commands of a language with exceptions: a command reads
  and changes a state and ends with a value, with an
  exception or with the end of the whole process. A state
  change that happened before an exception stays.

  Main declarations:
    * `Outcome`, `Command`
    * `Command.handle`, `Command.ensure`, `Command.focus`
    * `Command.run_bind`, `Command.run_handle` and the
      other run lemmas
-/

------------------------------------------------------------
-- Outcomes and Commands
------------------------------------------------------------

/-
  How a command ends: with a value, with an exception that
  can be handled, or for good.
-/
inductive Outcome (η ε α : Type) where
| returned (a : α)
| raised (e : ε)
| halted (h : η)
deriving DecidableEq, Repr

/- A command over states `σ`. -/
structure Command (σ η ε α : Type) where
  run : σ → Outcome η ε α × σ

namespace Command

variable {σ τ η ε α β : Type}

/- Continue with the value of a command, if it has one. -/
def bind
    (c : Command σ η ε α)
    (f : α → Command σ η ε β) : Command σ η ε β where
  run s :=
    match c.run s with
    | (.returned a, s') => (f a).run s'
    | (.raised e, s') => (.raised e, s')
    | (.halted h, s') => (.halted h, s')

instance : Monad (Command σ η ε) where
  pure a := ⟨fun s => (.returned a, s)⟩
  bind := bind

/- Throw an exception. -/
def raise (e : ε) : Command σ η ε α where
  run s := (.raised e, s)

/- End the process. -/
def halt (h : η) : Command σ η ε α where
  run s := (.halted h, s)

/- The current state. -/
def get : Command σ η ε σ where
  run s := (.returned s, s)

/- Change the state. -/
def modify (f : σ → σ) : Command σ η ε Unit where
  run s := (.returned (), f s)

/- Pass an exception of `c` to the handler `f`. -/
def handle
    (c : Command σ η ε α)
    (f : ε → Command σ η ε α) : Command σ η ε α where
  run s :=
    match c.run s with
    | (.returned a, s') => (.returned a, s')
    | (.raised e, s') => (f e).run s'
    | (.halted h, s') => (.halted h, s')

/-
  Clean up after `c`, whether it returned or threw. The end
  of the process leaves no time to clean up.
-/
def ensure
    (c : Command σ η ε α)
    (cleanup : σ → σ) : Command σ η ε α where
  run s :=
    match c.run s with
    | (.returned a, s') => (.returned a, cleanup s')
    | (.raised e, s') => (.raised e, cleanup s')
    | (.halted h, s') => (.halted h, s')

/- Run a command on a part of the state. -/
def focus
    (read : σ → τ)
    (write : τ → σ → σ)
    (c : Command τ η ε α) : Command σ η ε α where
  run s :=
    ((c.run (read s)).1, write (c.run (read s)).2 s)

/- Tell the ways to end in another type. -/
def relabel {η' : Type}
    (f : η → η')
    (c : Command σ η ε α) : Command σ η' ε α where
  run s :=
    match c.run s with
    | (.returned a, s') => (.returned a, s')
    | (.raised e, s') => (.raised e, s')
    | (.halted h, s') => (.halted (f h), s')

/- Run a command for every element of a list, in order. -/
def forEach
    (f : α → Command σ η ε Unit) :
    List α → Command σ η ε Unit
| [] => pure ()
| a :: as => do
    f a
    forEach f as

------------------------------------------------------------
-- Run Lemmas
------------------------------------------------------------

@[simp] theorem run_pure (a : α) (s : σ) :
    (pure a : Command σ η ε α).run s = (.returned a, s) :=
  rfl

theorem run_bind
    (c : Command σ η ε α)
    (f : α → Command σ η ε β)
    (s : σ) :
    (c >>= f).run s =
      match c.run s with
      | (.returned a, s') => (f a).run s'
      | (.raised e, s') => (.raised e, s')
      | (.halted h, s') => (.halted h, s') :=
  rfl

/- A command goes on with the value of its first part. -/
theorem run_bind_returned
    {c : Command σ η ε α} {a : α} {s s' : σ}
    (hRun : c.run s = (.returned a, s'))
    (f : α → Command σ η ε β) :
    (c >>= f).run s = (f a).run s' := by
  rw [run_bind, hRun]

/- An exception in the first part is what is left of it. -/
theorem run_bind_raised
    {c : Command σ η ε α} {e : ε} {s s' : σ}
    (hRun : c.run s = (.raised e, s'))
    (f : α → Command σ η ε β) :
    (c >>= f).run s = (.raised e, s') := by
  rw [run_bind, hRun]

/- Commands with one effect on every state are equal. -/
theorem ext_run
    {c d : Command σ η ε α}
    (hRun : ∀ s, c.run s = d.run s) : c = d := by
  rcases c with ⟨f⟩
  rcases d with ⟨g⟩
  exact congrArg Command.mk (funext hRun)

theorem bind_pure_self (c : Command σ η ε α) :
    (c >>= fun a => pure a) = c := by
  apply ext_run
  intro s
  rw [run_bind]
  rcases c.run s with ⟨⟨a⟩ | ⟨e⟩ | ⟨h⟩, s'⟩ <;> rfl

theorem bind_bind {γ : Type}
    (c : Command σ η ε α)
    (f : α → Command σ η ε β)
    (g : β → Command σ η ε γ) :
    (c >>= f >>= g) = c >>= fun a => f a >>= g := by
  apply ext_run
  intro s
  rw [run_bind, run_bind, run_bind]
  rcases c.run s with ⟨⟨a⟩ | ⟨e⟩ | ⟨h⟩, s'⟩ <;> rfl

@[simp] theorem run_raise (e : ε) (s : σ) :
    (raise e : Command σ η ε α).run s = (.raised e, s) :=
  rfl

@[simp] theorem run_halt (h : η) (s : σ) :
    (halt h : Command σ η ε α).run s = (.halted h, s) :=
  rfl

@[simp] theorem run_get (s : σ) :
    (get : Command σ η ε σ).run s = (.returned s, s) :=
  rfl

@[simp] theorem run_modify (f : σ → σ) (s : σ) :
    (modify f : Command σ η ε Unit).run s =
      (.returned (), f s) :=
  rfl

theorem run_handle
    (c : Command σ η ε α)
    (f : ε → Command σ η ε α)
    (s : σ) :
    (c.handle f).run s =
      match c.run s with
      | (.returned a, s') => (.returned a, s')
      | (.raised e, s') => (f e).run s'
      | (.halted h, s') => (.halted h, s') :=
  rfl

theorem run_ensure
    (c : Command σ η ε α)
    (cleanup : σ → σ)
    (s : σ) :
    (c.ensure cleanup).run s =
      match c.run s with
      | (.returned a, s') => (.returned a, cleanup s')
      | (.raised e, s') => (.raised e, cleanup s')
      | (.halted h, s') => (.halted h, s') :=
  rfl

theorem run_relabel {η' : Type}
    (f : η → η')
    (c : Command σ η ε α)
    (s : σ) :
    (c.relabel f).run s =
      match c.run s with
      | (.returned a, s') => (.returned a, s')
      | (.raised e, s') => (.raised e, s')
      | (.halted h, s') => (.halted (f h), s') :=
  rfl

@[simp] theorem run_focus
    (read : σ → τ)
    (write : τ → σ → σ)
    (c : Command τ η ε α)
    (s : σ) :
    (c.focus read write).run s =
      ((c.run (read s)).1, write (c.run (read s)).2 s) :=
  rfl

@[simp] theorem run_ite
    (p : Prop) [Decidable p]
    (c d : Command σ η ε α)
    (s : σ) :
    (if p then c else d).run s =
      if p then c.run s else d.run s := by
  split <;> rfl

end Command
