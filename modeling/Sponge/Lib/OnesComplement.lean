import Mathlib.Algebra.GroupWithZero.Nat
import Mathlib.Tactic.Common

/-!
# Ones' complement sums of sixteen bits

A ones' complement sum adds the carry out of the sixteenth bit back in. `reduce` does that to a sum
that was taken without it: it folds the upper half into the lower, twice. For a sum below `2 ^ 32` no
upper half is left then (`reduce_le`).

Folding keeps the residue modulo `0xffff` (`reduce_mod`), and only zero folds to zero
(`reduce_eq_zero`), so a sum folds to all ones exactly when it is a positive multiple of `0xffff`
(`reduce_eq_max`). A sum and the complement of what it folds to make such a multiple
(`reduce_complement`): that is how a checksum is verified.

`sum` adds words one by one, each carry back in at once. It makes no difference when the carries are added
(`sum_eq_reduce`): a value of sixteen bits is fixed by its residue modulo `0xffff` and by whether it is
zero, and both keep those (`eq_reduce`).
-/

namespace OnesComplement

/-- Add the upper half of a sum to its lower sixteen bits, if it has an upper half. -/
def fold (s : Nat) : Nat := if 0xffff < s then s / 2 ^ 16 + s % 2 ^ 16 else s

/-- Fold twice. -/
def reduce (s : Nat) : Nat := fold (fold s)

theorem fold_mod (s : Nat) : fold s % 0xffff = s % 0xffff := by
  unfold fold
  split <;> omega

theorem fold_eq_zero {s : Nat} : fold s = 0 ↔ s = 0 := by
  unfold fold
  split <;> omega

theorem reduce_le {s : Nat} (h : s < 2 ^ 32) : reduce s ≤ 0xffff := by
  have hhalf : fold s ≤ 2 * 0xffff := by
    unfold fold
    split <;> omega
  unfold reduce
  generalize fold s = once at *
  unfold fold
  split <;> omega

theorem reduce_mod (s : Nat) : reduce s % 0xffff = s % 0xffff := by
  rw [reduce, fold_mod, fold_mod]

theorem reduce_eq_zero {s : Nat} : reduce s = 0 ↔ s = 0 := by
  rw [reduce, fold_eq_zero, fold_eq_zero]

/-- A sum folds to all ones exactly when it is a positive multiple of `0xffff`. -/
theorem reduce_eq_max {s : Nat} (h : s < 2 ^ 32) :
    reduce s = 0xffff ↔ 0 < s ∧ s % 0xffff = 0 := by
  have hle := reduce_le h
  have hmod := reduce_mod s
  have hzero := reduce_eq_zero (s := s)
  omega

/-- What has sixteen bits, the residue of a sum, and is zero only with it, is the sum folded. -/
theorem eq_reduce {r s : Nat} (small : s < 2 ^ 32) (le : r ≤ 0xffff) (mod : r % 0xffff = s % 0xffff)
    (zero : r = 0 ↔ s = 0) : r = reduce s := by
  have hle := reduce_le small
  have hmod := reduce_mod s
  have hzero := reduce_eq_zero (s := s)
  omega

/-- **A sum and the complement of its folding fold to all ones.** -/
theorem reduce_complement {s : Nat} (h : s + 0xffff < 2 ^ 32) :
    reduce (s + (0xffff - reduce s)) = 0xffff := by
  have hle := reduce_le (s := s) (by omega)
  have hmod := reduce_mod s
  have hzero := reduce_eq_zero (s := s)
  apply (reduce_eq_max (by omega)).mpr
  omega

/-! ## Word by word -/

/-- The sum of two words, with the carry out of the sixteenth bit added back in. -/
def plus (a b : Nat) : Nat := (a + b) % 2 ^ 16 + (a + b) / 2 ^ 16

/-- The ones' complement sum of a list of words. -/
def sum (words : List Nat) : Nat := words.foldl plus 0

/-- The running sum of words of sixteen bits has sixteen bits, the residue of the plain sum, and is zero
only with it. -/
theorem foldl_plus {words : List Nat} (small : ∀ w ∈ words, w ≤ 0xffff) {acc : Nat} (le : acc ≤ 0xffff) :
    words.foldl plus acc ≤ 0xffff ∧
      words.foldl plus acc % 0xffff = (acc + words.sum) % 0xffff ∧
      (words.foldl plus acc = 0 ↔ acc + words.sum = 0) := by
  induction words generalizing acc with
  | nil => exact ⟨le, rfl, Iff.rfl⟩
  | cons w words ih =>
    have hw := small w List.mem_cons_self
    have hplus : plus acc w ≤ 0xffff ∧ plus acc w % 0xffff = (acc + w) % 0xffff ∧
        (plus acc w = 0 ↔ acc + w = 0) := by
      unfold plus
      omega
    obtain ⟨hle, hmod, hzero⟩ := ih (fun v hv => small v (List.mem_cons_of_mem _ hv)) hplus.1
    rw [List.foldl_cons, List.sum_cons]
    refine ⟨hle, ?_, ?_⟩
    · omega
    · omega

/-- **When the carries are added makes no difference**: a sum with the residue of the words, and zero only
with them, folds to what they add up to. -/
theorem sum_eq_reduce {words : List Nat} {s : Nat} (small : ∀ w ∈ words, w ≤ 0xffff) (below : s < 2 ^ 32)
    (mod : words.sum % 0xffff = s % 0xffff) (zero : words.sum = 0 ↔ s = 0) : sum words = reduce s := by
  obtain ⟨hle, hmod, hzero⟩ := foldl_plus small (Nat.zero_le _)
  rw [Nat.zero_add] at hmod hzero
  exact eq_reduce below hle (hmod.trans mod) (hzero.trans zero)

/-- A number of 32 bits enters a sum as its two halves. -/
theorem sum_halves {words : List Nat} {s : Nat} (small : ∀ w ∈ words, w ≤ 0xffff)
    (below : s + words.sum < 2 ^ 32) :
    sum (s / 2 ^ 16 :: s % 2 ^ 16 :: words) = reduce (s + words.sum) := by
  -- the upper half counts `2 ^ 16` on one side and one on the other, which is the same residue
  apply sum_eq_reduce _ below
  · rw [List.sum_cons, List.sum_cons]
    omega
  · rw [List.sum_cons, List.sum_cons]
    omega
  · intro w hw
    rcases List.mem_cons.mp hw with rfl | hw
    · omega
    rcases List.mem_cons.mp hw with rfl | hw
    · omega
    · exact small w hw

end OnesComplement
