import Sponge.Lib.SortedMap

/-!
# Rate limiters

A limiter lets a key through at most once in a fixed time. It keeps a map of the keys that went through
lately, each with the time it may go again, and forgets an entry when that time has come. The history is
a log of what went through and when, oldest first.

`Limits` ties the map to the log: a key is in the map exactly while its last time is less than `gap` ago.
A key that is not in the map may go (`Limits.pass`), time may pass (`Limits.expire`), and then any two
times of one key lie `gap` apart (`spaced`); and a key with no time in the last `gap` is free to go
(`Limits.free_iff`).
-/

namespace Limiter

variable {κ : Type*} [DecidableEq κ] {gap now : Nat} {log : List (κ × Nat)}

/-- The times a key went through, oldest first. -/
def times (log : List (κ × Nat)) (k : κ) : List Nat := (log.filter fun e => e.1 = k).map Prod.snd

theorem times_append (log more : List (κ × Nat)) (k : κ) :
    times (log ++ more) k = times log k ++ times more k := by
  simp [times]

theorem times_self (k : κ) (t : Nat) : times [(k, t)] k = [t] := by
  simp [times]

theorem times_other {k k' : κ} (h : k' ≠ k) (t : Nat) : times [(k, t)] k' = [] := by
  simp [times, Ne.symm h]

section Map

variable [LT κ] {m : SortedMap κ Nat}

/-- The map holds the keys that went through less than `gap` ago, and the times of each key lie `gap`
apart. -/
structure Limits (gap now : Nat) (log : List (κ × Nat)) (m : SortedMap κ Nat) : Prop where
  past : ∀ e ∈ log, e.2 ≤ now
  spaced : ∀ k, (times log k).Pairwise fun t t' => t + gap ≤ t'
  held : ∀ k, m.find? k =
    (times log k).getLast?.bind fun t => if now < t + gap then some (t + gap) else none

theorem limits_empty (gap now : Nat) : Limits gap now ([] : List (κ × Nat)) SortedMap.empty where
  past := by simp
  spaced := by simp [times]
  held := fun _ => rfl

/-- A key is free when none of its times is less than `gap` ago. -/
theorem Limits.free_iff (h : Limits gap now log m) (k : κ) :
    m.find? k = none ↔ ∀ t ∈ times log k, t + gap ≤ now := by
  rw [h.held]
  have hspaced := h.spaced k
  rcases List.eq_nil_or_concat (times log k) with hnil | ⟨before, last, hlast⟩
  · simp [hnil]
  · rw [List.concat_eq_append] at hlast
    rw [hlast] at hspaced ⊢
    simp only [List.getLast?_append, List.getLast?_singleton, Option.some_or, Option.bind_some,
      List.mem_append, List.mem_singleton]
    -- the last time is the latest, so it decides
    constructor
    · intro hnone t ht
      have hold : last + gap ≤ now := by
        by_contra hyoung
        rw [if_pos (Nat.lt_of_not_le hyoung)] at hnone
        cases hnone
      rcases ht with hbefore | rfl
      · have hlate := (List.pairwise_append.mp hspaced).2.2 t hbefore last (List.mem_singleton.mpr rfl)
        omega
      · exact hold
    · intro hall
      rw [if_neg (Nat.not_lt_of_le (hall last (.inr rfl)))]

variable [LE κ] [Std.LawfulOrderLT κ]

/-- Time passes, and the entries whose time has come are forgotten. -/
theorem Limits.expire (h : Limits gap now log m) {later : Nat} (le : now ≤ later) :
    Limits gap later log (m.filter fun e => later < e.2) where
  past := fun e he => Nat.le_trans (h.past e he) le
  spaced := h.spaced
  held := by
    intro k
    rw [SortedMap.find?_filter, h.held]
    cases (times log k).getLast? with
    | none => rfl
    | some t =>
      simp only [Option.bind_some]
      by_cases hlater : later < t + gap
      · simp [hlater, show now < t + gap by omega]
      · by_cases hnow : now < t + gap
        · simp [Option.filter, hlater, hnow]
        · simp [hlater, hnow]

variable [DecidableLT κ] [Std.IsLinearOrder κ]

/-- **A free key goes through**, and is held for `gap`. -/
theorem Limits.pass (h : Limits gap now log m) (pos : 0 < gap) {k : κ} (free : m.find? k = none) :
    Limits gap now (log ++ [(k, now)]) (m.insert k (now + gap)) where
  past := by
    intro e he
    rcases List.mem_append.mp he with hold | hnew
    · exact h.past e hold
    · simp [List.mem_singleton.mp hnew]
  spaced := by
    intro k'
    rw [times_append]
    by_cases hk : k' = k
    · subst hk
      rw [times_self, List.pairwise_append]
      refine ⟨h.spaced k', List.pairwise_singleton _ _, ?_⟩
      intro t ht t' ht'
      rw [List.mem_singleton.mp ht']
      exact (h.free_iff k').mp free t ht
    · rw [times_other hk, List.append_nil]
      exact h.spaced k'
  held := by
    intro k'
    rw [times_append]
    by_cases hk : k' = k
    · subst hk
      simp [times_self, pos]
    · rw [times_other hk, List.append_nil, SortedMap.find?_insert_ne hk, h.held]

end Map

end Limiter
