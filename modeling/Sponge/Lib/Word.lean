import Mathlib.Algebra.GroupWithZero.Nat
import Mathlib.Tactic.Common

/-!
# 64-bit unsigned arithmetic over the naturals

`Word64.add` and `Word64.sub` are the sum and the difference of two 64-bit unsigned words, kept as
naturals below `2 ^ 64`. They wrap the way the hardware does; `add_eq` and `sub_eq` say when they
do not, and a proof about in-range numbers rewrites with those two and goes on with `omega`.
-/

namespace Word64

/-- The sum modulo `2 ^ 64`. -/
def add (a b : Nat) : Nat := (a + b) % 2 ^ 64

/-- The difference modulo `2 ^ 64`. -/
def sub (a b : Nat) : Nat := (a + (2 ^ 64 - b % 2 ^ 64)) % 2 ^ 64

theorem add_eq {a b : Nat} (h : a + b < 2 ^ 64) : add a b = a + b :=
  Nat.mod_eq_of_lt h

theorem sub_eq {a b : Nat} (h : b ≤ a) (ha : a < 2 ^ 64) : sub a b = a - b := by
  unfold sub
  omega

theorem add_lt (a b : Nat) : add a b < 2 ^ 64 :=
  Nat.mod_lt _ (by decide)

end Word64
