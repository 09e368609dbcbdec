import Sponge.Lib.Word

/-!
# Wrapping sequence numbers

`libsponge/wrapping_integers.cc`: a 32-bit sequence number stands for a 64-bit absolute one, counted
from the initial sequence number. `wrap` forgets the high half; `unwrap` finds it again from a
checkpoint nearby.

The absolute numbers are naturals. `wrap` adds in 64 bits and `unwrap` answers a 64-bit number, as
the source does; `unwrap_wrap` is the law every user needs: an absolute number less than `2 ^ 31`
away from the checkpoint comes back.
-/

namespace Sponge

/-- A 32-bit sequence number. -/
structure WrappingInt32 where
  rawValue : UInt32
deriving DecidableEq, Repr

/-- The number of 32-bit sequence numbers. -/
def N : Nat := 2 ^ 32

/-- `wrap`: the sequence number of an absolute one. -/
def wrap (n : Nat) (isn : WrappingInt32) : WrappingInt32 :=
  ⟨(Word64.add n isn.rawValue.toNat % N).toUInt32⟩

/-- `unwrap`: the absolute number that wraps to `n` and lies in the checkpoint's period or in a
neighbouring one. -/
def unwrap (n isn : WrappingInt32) (checkpoint : Nat) : Nat :=
  let nAbs := (n.rawValue - isn.rawValue).toNat
  let offset := checkpoint % N
  let base := checkpoint / N
  let base :=
    if offset ≤ nAbs ∧ N / 2 ≤ nAbs - offset ∧ N ≤ checkpoint then base - 1
    else if nAbs < offset ∧ N / 2 ≤ offset - nAbs then base + 1
    else base
  (base * N + nAbs) % 2 ^ 64

/-- `dist`: how far two absolute numbers lie apart. -/
def dist (a b : Nat) : Nat := if a ≤ b then b - a else a - b

/-- A wrapped number is as far from the initial one as the absolute number says. -/
theorem wrap_sub_isn (n : Nat) (isn : WrappingInt32) :
    ((wrap n isn).rawValue - isn.rawValue).toNat = n % 2 ^ 32 := by
  have hisn := isn.rawValue.toNat_lt
  rw [UInt32.toNat_sub]
  simp only [wrap, Word64.add, N, Nat.toUInt32_eq, UInt32.toNat_ofNat']
  omega

/-- **Unwrapping finds a number near the checkpoint.** -/
theorem unwrap_wrap {x checkpoint : Nat} (isn : WrappingInt32) (above : checkpoint < x + 2 ^ 31)
    (below : x < checkpoint + 2 ^ 31) (inRange : x < 2 ^ 64) :
    unwrap (wrap x isn) isn checkpoint = x := by
  have hx := Nat.div_add_mod x (2 ^ 32)
  have hc := Nat.div_add_mod checkpoint (2 ^ 32)
  have hxlt := Nat.mod_lt x (show 0 < 2 ^ 32 by decide)
  have hclt := Nat.mod_lt checkpoint (show 0 < 2 ^ 32 by decide)
  simp only [unwrap, wrap_sub_isn, N]
  -- the two periods differ by at most one, and the remainders say which way
  split
  · omega
  · split <;> omega

/-- The initial number itself stands for zero. -/
theorem wrap_zero (isn : WrappingInt32) : wrap 0 isn = isn := by
  have hisn := isn.rawValue.toNat_lt
  have hraw : (wrap 0 isn).rawValue = isn.rawValue := by
    apply UInt32.toNat_inj.mp
    simp only [wrap, Word64.add, N, Nat.toUInt32_eq, UInt32.toNat_ofNat']
    omega
  cases isn
  exact congrArg WrappingInt32.mk hraw

/-- The number behind the initial one. -/
theorem wrap_one (isn : WrappingInt32) : wrap 1 isn = ⟨isn.rawValue + 1⟩ := by
  have hisn := isn.rawValue.toNat_lt
  have hraw : (wrap 1 isn).rawValue = isn.rawValue + 1 := by
    apply UInt32.toNat_inj.mp
    rw [UInt32.toNat_add]
    simp only [wrap, Word64.add, N, Nat.toUInt32_eq, UInt32.toNat_ofNat', UInt32.toNat_one]
    omega
  exact congrArg WrappingInt32.mk hraw

/-- An unwrapped number is as far into its period as the sequence number is from the initial one. -/
theorem unwrap_mod (n isn : WrappingInt32) (checkpoint : Nat) :
    unwrap n isn checkpoint % 2 ^ 32 = (n.rawValue - isn.rawValue).toNat := by
  have hlt := (n.rawValue - isn.rawValue).toNat_lt
  simp only [unwrap, N]
  omega

/-- What an unwrapped number wraps to. -/
theorem wrap_unwrap (n isn : WrappingInt32) (checkpoint : Nat) :
    wrap (unwrap n isn checkpoint) isn = n := by
  have hn := n.rawValue.toNat_lt
  have hisn := isn.rawValue.toNat_lt
  have hmod := unwrap_mod n isn checkpoint
  have hraw : (wrap (unwrap n isn checkpoint) isn).rawValue = n.rawValue := by
    apply UInt32.toNat_inj.mp
    rw [UInt32.toNat_sub] at hmod
    simp only [wrap, Word64.add, N, Nat.toUInt32_eq, UInt32.toNat_ofNat']
    omega
  cases n
  exact congrArg WrappingInt32.mk hraw

/-- Around the origin a number is its distance from the initial one. -/
theorem unwrap_origin_lt (n isn : WrappingInt32) : unwrap n isn 0 < 2 ^ 32 := by
  have hlt := (n.rawValue - isn.rawValue).toNat_lt
  unfold unwrap
  dsimp only
  rw [if_neg (by unfold N; omega), if_neg (by unfold N; omega)]
  unfold N
  omega

theorem unwrap_self (isn : WrappingInt32) : unwrap isn isn 0 = 0 := by
  have h : unwrap (wrap 0 isn) isn 0 = 0 := unwrap_wrap isn (by omega) (by omega) (by omega)
  rwa [wrap_zero] at h

/-! ## The closest number -/

/-- Near the checkpoint: an unwrapped number lies at most half a period away, or it is in the first
period, above the checkpoint, and there is no lower candidate. -/
theorem unwrap_near (n isn : WrappingInt32) {checkpoint : Nat} (small : checkpoint < 2 ^ 64 - 2 ^ 31) :
    checkpoint ≤ unwrap n isn checkpoint + 2 ^ 31 ∧ unwrap n isn checkpoint ≤ checkpoint + 2 ^ 31 ∨
      checkpoint ≤ unwrap n isn checkpoint ∧ unwrap n isn checkpoint < 2 ^ 32 := by
  have hlt := (n.rawValue - isn.rawValue).toNat_lt
  have hc := Nat.div_add_mod checkpoint (2 ^ 32)
  have hclt := Nat.mod_lt checkpoint (show 0 < 2 ^ 32 by decide)
  unfold unwrap N
  dsimp only
  split
  · omega
  · split <;> omega

/-- **`unwrap` answers the closest number.** It wraps back to the sequence number, no 64-bit number
that does lies closer to the checkpoint, and so a number less than half a period away from the
checkpoint comes back. -/
theorem unwrap_closest (isn : WrappingInt32) {checkpoint : Nat} (small : checkpoint < 2 ^ 64 - 2 ^ 31) :
    (∀ n, wrap (unwrap n isn checkpoint) isn = n ∧ unwrap n isn checkpoint < 2 ^ 64 ∧
      ∀ w < 2 ^ 64, wrap w isn = n → dist (unwrap n isn checkpoint) checkpoint ≤ dist w checkpoint) ∧
    ∀ x, dist x checkpoint < 2 ^ 31 → unwrap (wrap x isn) isn checkpoint = x := by
  refine ⟨fun n => ⟨wrap_unwrap n isn checkpoint, Nat.mod_lt _ (by decide), ?_⟩, ?_⟩
  · rintro w - rfl
    -- the two candidates differ by whole periods, so one of them is the other or half a period away
    have hsame : unwrap (wrap w isn) isn checkpoint % 2 ^ 32 = w % 2 ^ 32 := by
      rw [unwrap_mod, wrap_sub_isn]
    have hnear := unwrap_near (wrap w isn) isn small
    generalize unwrap (wrap w isn) isn checkpoint = v at *
    have hv := Nat.div_add_mod v (2 ^ 32)
    have hw := Nat.div_add_mod w (2 ^ 32)
    unfold dist
    split <;> split <;> omega
  · intro x hx
    unfold dist at hx
    split at hx <;> exact unwrap_wrap isn (by omega) (by omega) (by omega)

/-- Half a period below the checkpoint and half a period above it are equally close; the answer is
the lower one from the second period on. -/
theorem unwrap_closest_tie :
    (∀ w < 2 ^ 64, wrap w ⟨5⟩ = wrap (2 ^ 33 + 2 ^ 31) ⟨5⟩ →
      dist (unwrap (wrap (2 ^ 33 + 2 ^ 31) ⟨5⟩) ⟨5⟩ (2 ^ 33)) (2 ^ 33) ≤ dist w (2 ^ 33)) ∧
    unwrap (wrap (2 ^ 33 + 2 ^ 31) ⟨5⟩) ⟨5⟩ (2 ^ 33) = 2 ^ 33 - 2 ^ 31 ∧
    unwrap (wrap (2 ^ 33 + 7) ⟨5⟩) ⟨5⟩ (2 ^ 33) = 2 ^ 33 + 7 := by
  obtain ⟨hclosest, hback⟩ := unwrap_closest ⟨5⟩ (show 2 ^ 33 < 2 ^ 64 - 2 ^ 31 by decide)
  exact ⟨(hclosest _).2.2, by decide, hback _ (by decide)⟩

end Sponge
