import Mathlib.Logic.Basic

/-!
# Guarded runs of a deterministic machine

A machine is a step function `σ → ω → σ` and a guard `ok : σ → ω → Prop`: the guard says which
operations the environment may ask for in a state. `Reach` collects the states met along the runs
whose every operation passes its guard.

Two rules carry every law about runs. `Reach.invariant` is the plain induction. `Reach.invariant_below`
is the one for a machine with a growing counter: the bound is assumed only of the state reached, and
the counter's growth hands it back to every state before.

`Reach.map` carries a run over to a machine with less in its state.

`Guarded` spells the guards of one operation list out as a conjunction, so a concrete run is admitted
by evaluating it (`reach_foldl`).
-/

namespace Runs

variable {σ ω : Type*} {step : σ → ω → σ} {ok : σ → ω → Prop} {init : σ}

/-- The states a machine meets from `init` by operations whose guard holds. -/
inductive Reach (step : σ → ω → σ) (ok : σ → ω → Prop) (init : σ) : σ → Prop
  | start : Reach step ok init init
  | next {s : σ} {op : ω} : Reach step ok init s → ok s op → Reach step ok init (step s op)

/-- What holds at the start and survives every guarded step holds of every state reached. -/
theorem Reach.invariant {s : σ} (run : Reach step ok init s) (Inv : σ → Prop) (base : Inv init)
    (keeps : ∀ s op, Inv s → ok s op → Inv (step s op)) : Inv s := by
  induction run with
  | start => exact base
  | next _ hok ih => exact keeps _ _ ih hok

/-- The invariant rule under a growing counter: the bound on the state reached is a bound on every
state before it, so each step may use it. -/
theorem Reach.invariant_below {s : σ} (run : Reach step ok init s) (Inv : σ → Prop)
    (counter : σ → Nat) {bound : Nat} (base : Inv init)
    (grows : ∀ s op, ok s op → counter s ≤ counter (step s op))
    (keeps : ∀ s op, Inv s → ok s op → counter (step s op) < bound → Inv (step s op))
    (below : counter s < bound) : Inv s := by
  induction run with
  | start => exact base
  | next _ hok ih =>
    have before := Nat.lt_of_le_of_lt (grows _ _ hok) below
    exact keeps _ _ (ih before) hok below

/-- What a map that commutes with the steps makes of a run is a run of the machine it maps to. -/
theorem Reach.map {τ : Type*} {step' : τ → ω → τ} {ok' : τ → ω → Prop} {s : σ} (f : σ → τ)
    (commutes : ∀ s op, f (step s op) = step' (f s) op) (allowed : ∀ s op, ok s op → ok' (f s) op)
    (run : Reach step ok init s) : Reach step' ok' (f init) (f s) := by
  induction run with
  | start => exact .start
  | next _ hok ih =>
    rw [commutes]
    exact .next ih (allowed _ _ hok)

/-- The guards along one operation list, as a conjunction. -/
def Guarded (step : σ → ω → σ) (ok : σ → ω → Prop) : σ → List ω → Prop
  | _, [] => True
  | s, op :: ops => ok s op ∧ Guarded step ok (step s op) ops

instance Guarded.decidable [∀ s op, Decidable (ok s op)] :
    ∀ (s : σ) (ops : List ω), Decidable (Guarded step ok s ops)
  | _, [] => inferInstanceAs (Decidable True)
  | s, op :: ops =>
    have := Guarded.decidable (step s op) ops
    inferInstanceAs (Decidable (ok s op ∧ Guarded step ok (step s op) ops))

/-- A guarded list of operations runs to its fold. -/
theorem reach_foldl {s : σ} (run : Reach step ok init s) :
    ∀ {ops : List ω}, Guarded step ok s ops → Reach step ok init (ops.foldl step s)
  | [], _ => run
  | _ :: _, h => reach_foldl (run.next h.1) h.2

end Runs
