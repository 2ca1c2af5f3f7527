import LibCosmos.Core.Types
import LibCosmos.Foundation.Places

/-
  Member functions of an object that owns resources: they
  change the object and write down which resources come and
  go.

  Main declarations:
    * `Ledger`, `Ledger.record`, `Ledger.assign`
    * `Ledger.after`
-/

namespace Cosmos

open Custody

/- An object and the log of the resources of its process. -/
structure Ledger (T R : Type) where
  this : T
  log : List (Entry R)

namespace Ledger

variable {T R α : Type}

/- Note an event in the log. -/
def record (entry : Entry R) : Method (Ledger T R) Unit :=
  Command.modify fun s => { s with log := entry :: s.log }

@[simp] theorem run_record
    (entry : Entry R) (s : Ledger T R) :
    (record entry).run s =
      (.returned (), { s with log := entry :: s.log }) :=
  rfl

/- `m_… = value` on the object. -/
def assign (f : T → T) : Method (Ledger T R) Unit :=
  Command.modify fun s => { s with this := f s.this }

@[simp] theorem run_assign (f : T → T) (s : Ledger T R) :
    (assign f).run s =
      (.returned (), { s with this := f s.this }) :=
  rfl

/- The object itself. -/
def self : Method (Ledger T R) T := do
  let s ← Command.get
  pure s.this

@[simp] theorem run_self (s : Ledger T R) :
    (self : Method (Ledger T R) T).run s =
      (.returned s.this, s) :=
  rfl

/- The object and the log after a member function. -/
def after
    (m : Method (Ledger T R) α)
    (this : T) (log : List (Entry R)) : Ledger T R :=
  (m.run ⟨this, log⟩).2

end Ledger

end Cosmos
