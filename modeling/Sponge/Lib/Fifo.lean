import Mathlib.Tactic.Common

/-!
# Bounded queues

A `Fifo` is a bounded first-in first-out queue that can be closed, together with everything it has handed
out. What it has accepted is then not a further record: it is what was handed out, followed by what is
held (`accepted`). An offer extends that by what the queue admits (`accepted_offer`), and taking from the
front leaves it as it was (`accepted_take`); so whatever is offered and taken, the items come out in the
order they went in, each once.

A queue that is closed and empty is `Done`, and nothing it is offered or asked for changes it.
-/

/-- A bounded queue, with everything it has handed out. -/
structure Fifo (α : Type*) where
  capacity : Nat
  taken : List α
  contents : List α
  closed : Bool

namespace Fifo

variable {α : Type*}

/-- The empty queue. -/
def new (capacity : Nat) : Fifo α := ⟨capacity, [], [], false⟩

variable (f : Fifo α)

/-- Everything accepted so far, in order. -/
def accepted : List α := f.taken ++ f.contents

/-- How many more items fit. -/
def room : Nat := f.capacity - f.contents.length

/-- What the queue accepts of the items offered: those that fit, and none once it is closed. -/
def admits (items : List α) : List α := if f.closed then [] else items.take f.room

def offer (items : List α) : Fifo α := { f with contents := f.contents ++ f.admits items }

/-- The next `n` items, or as many as there are. -/
def front (n : Nat) : List α := f.contents.take n

/-- Hand out the next `n` items. -/
def take (n : Nat) : Fifo α :=
  { f with taken := f.taken ++ f.front n, contents := f.contents.drop n }

def close : Fifo α := { f with closed := true }

/-- Nothing is held, and nothing more will be. -/
def Done : Prop := f.closed = true ∧ f.contents = []

theorem accepted_offer (items : List α) : (f.offer items).accepted = f.accepted ++ f.admits items :=
  (List.append_assoc _ _ _).symm

theorem accepted_take (n : Nat) : (f.take n).accepted = f.accepted := by
  show f.taken ++ f.contents.take n ++ f.contents.drop n = _
  rw [List.append_assoc, List.take_append_drop]
  rfl

variable {f}

theorem Done.offer (h : f.Done) (items : List α) : (f.offer items).Done := by
  refine ⟨h.1, ?_⟩
  show f.contents ++ f.admits items = []
  rw [h.2, admits, if_pos h.1]
  rfl

theorem Done.take (h : f.Done) (n : Nat) : (f.take n).Done := by
  refine ⟨h.1, ?_⟩
  show f.contents.drop n = []
  rw [h.2, List.drop_nil]

theorem Done.close (h : f.Done) : f.close.Done := ⟨rfl, h.2⟩

end Fifo
