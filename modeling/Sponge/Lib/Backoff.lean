import Mathlib.Algebra.GroupWithZero.Nat

/-!
# Backing off, and giving up

A party that waits for an answer repeats its question whenever a timeout runs out, and gives up once it
has done so `limit` times. Each repetition doubles the timeout, except where the party is only probing:
then the timeout goes back to its base, and the repetition is not held against the other side.

Time comes in ticks of any length, and a tick that runs over is not carried into the next period. So the
moment of giving up is known up to one tick for each period still to come: not before `patience` is used
up (`not_ended_of_lt`), and not later than that and a tick for each of them (`ended_of_le`). While probing,
the repetitions keep coming and the party never gives up (`probes`).
-/

namespace Backoff

/-- A waiting party: the doublings of its timeout, the repetitions held against the other side, the time
since the last one, the repetitions in all, and whether it has given up. -/
structure State where
  exponent : Nat
  fails : Nat
  elapsed : Nat
  sent : Nat
  ended : Bool

variable {base limit δ : Nat} {probing : Bool} {s : State}

/-- The timeout in force. -/
def State.due (base : Nat) (s : State) : Nat := base * 2 ^ s.exponent

/-- A tick: give up, repeat the question, or let the time pass. -/
def tick (base limit : Nat) (probing : Bool) (s : State) (ms : Nat) : State :=
  if limit ≤ s.fails then { s with ended := true }
  else if s.due base ≤ s.elapsed + ms then
    { s with
      exponent := if probing then 0 else s.exponent + 1
      fails := if probing then s.fails else s.fails + 1
      elapsed := 0
      sent := s.sent + 1 }
  else { s with elapsed := s.elapsed + ms }

/-- A run of ticks. -/
def run (base limit : Nat) (probing : Bool) (s : State) (ticks : List Nat) : State :=
  ticks.foldl (tick base limit probing) s

/-- A waiting party between two ticks. -/
structure Valid (base limit : Nat) (s : State) : Prop where
  within : s.fails ≤ limit
  early : s.elapsed < s.due base
  fresh : s.fails = limit → s.elapsed = 0
  spent : s.ended = true → s.fails = limit

theorem Valid.due_pos (h : Valid base limit s) : 0 < s.due base := Nat.lt_of_le_of_lt (Nat.zero_le _) h.early

theorem due_double (s : State) (e : Nat) (h : e = s.exponent + 1) :
    base * 2 ^ e = 2 * s.due base := by
  rw [h, State.due, Nat.pow_succ, ← Nat.mul_assoc, Nat.mul_comm]

/-- What a tick does to a party that is not probing. -/
theorem tick_cases (base limit : Nat) (s : State) (ms : Nat) :
    limit ≤ s.fails ∧ tick base limit false s ms = { s with ended := true } ∨
      s.fails < limit ∧ s.due base ≤ s.elapsed + ms ∧ tick base limit false s ms =
        ⟨s.exponent + 1, s.fails + 1, 0, s.sent + 1, s.ended⟩ ∨
      s.fails < limit ∧ s.elapsed + ms < s.due base ∧
        tick base limit false s ms = { s with elapsed := s.elapsed + ms } := by
  unfold tick
  by_cases hmany : limit ≤ s.fails
  · rw [if_pos hmany]
    exact .inl ⟨hmany, rfl⟩
  · rw [if_neg hmany]
    right
    by_cases hdue : s.due base ≤ s.elapsed + ms
    · rw [if_pos hdue]
      exact .inl ⟨by omega, hdue, rfl⟩
    · rw [if_neg hdue]
      exact .inr ⟨by omega, by omega, rfl⟩

theorem Valid.tick (h : Valid base limit s) (ms : Nat) : Valid base limit (tick base limit false s ms) := by
  rcases tick_cases base limit s ms with ⟨hmany, heq⟩ | ⟨hfew, -, heq⟩ | ⟨hfew, hquiet, heq⟩
  · rw [heq]
    exact ⟨h.within, h.early, h.fresh, fun _ => Nat.le_antisymm h.within hmany⟩
  · rw [heq]
    refine ⟨hfew, ?_, fun _ => rfl, fun hended => ?_⟩
    · show 0 < base * 2 ^ (s.exponent + 1)
      rw [due_double s _ rfl]
      exact Nat.mul_pos (by decide) h.due_pos
    · exact absurd (h.spent hended) (Nat.ne_of_lt hfew)
  · rw [heq]
    exact ⟨h.within, hquiet, fun hc => absurd hc (Nat.ne_of_lt hfew), h.spent⟩

theorem Valid.run (h : Valid base limit s) (ticks : List Nat) :
    Valid base limit (run base limit false s ticks) := by
  induction ticks generalizing s with
  | nil => exact h
  | cons ms ticks ih => exact ih (h.tick ms)

/-! ## The moment of giving up -/

/-- The periods still to come, from the one that runs to the one after the last repetition. -/
def patience (base limit : Nat) (s : State) : Nat := s.due base * (2 ^ (limit - s.fails) - 1)

/-- A period that ends is taken off the patience. -/
theorem patience_double (few : s.fails < limit) (sent : Nat) (ended : Bool) :
    patience base limit ⟨s.exponent + 1, s.fails + 1, 0, sent, ended⟩ + s.due base =
      patience base limit s := by
  obtain ⟨n, hn⟩ : ∃ n, limit - s.fails = n + 1 := ⟨limit - s.fails - 1, by omega⟩
  have hrest : limit - (s.fails + 1) = n := by omega
  have hpow : 1 ≤ 2 ^ n := Nat.one_le_two_pow
  unfold patience
  dsimp only
  rw [hn, hrest, State.due, due_double s _ rfl, Nat.mul_comm 2, Nat.mul_assoc, ← Nat.mul_succ, Nat.pow_succ]
  congr 1
  omega

theorem due_le_patience (few : s.fails < limit) : s.due base ≤ patience base limit s := by
  rw [← patience_double few s.sent s.ended]
  exact Nat.le_add_left _ _

theorem fails_lt_of_patience (some : 0 < patience base limit s) : s.fails < limit := by
  refine Nat.lt_of_not_le fun hmany => ?_
  rw [patience, Nat.sub_eq_zero_of_le hmany] at some
  exact absurd some (Nat.lt_irrefl 0)

/-- A tick uses up no more of the patience than it lasts. -/
theorem patience_tick_ge (few : s.fails < limit) (ms : Nat) :
    patience base limit s + (tick base limit false s ms).elapsed ≤
      patience base limit (tick base limit false s ms) + s.elapsed + ms := by
  rcases tick_cases base limit s ms with ⟨hmany, -⟩ | ⟨-, hdue, heq⟩ | ⟨-, -, heq⟩
  · omega
  · rw [heq, ← patience_double few (s.sent + 1) s.ended]
    dsimp only
    omega
  · rw [heq]
    show patience base limit s + (s.elapsed + ms) ≤ patience base limit s + s.elapsed + ms
    omega

/-- **Nobody gives up early.** -/
theorem not_ended_of_lt {ticks : List Nat} (short : s.elapsed + ticks.sum < patience base limit s) :
    (run base limit false s ticks).ended = s.ended ∧ (run base limit false s ticks).fails < limit := by
  induction ticks generalizing s with
  | nil => exact ⟨rfl, fails_lt_of_patience (Nat.lt_of_le_of_lt (Nat.zero_le _) short)⟩
  | cons ms ticks ih =>
    have hfew := fails_lt_of_patience (Nat.lt_of_le_of_lt (Nat.zero_le _) short)
    have hused := (patience_tick_ge hfew ms : patience base limit s + _ ≤ _)
    rw [List.sum_cons] at short
    have hended : (tick base limit false s ms).ended = s.ended := by
      rcases tick_cases base limit s ms with ⟨hmany, -⟩ | ⟨-, -, heq⟩ | ⟨-, -, heq⟩
      · omega
      · rw [heq]
      · rw [heq]
    obtain ⟨hsame, hrest⟩ := ih (s := tick base limit false s ms) (by omega)
    exact ⟨hsame.trans hended, hrest⟩

theorem ended_tick (h : s.ended = true) (ms : Nat) : (tick base limit probing s ms).ended = true := by
  unfold tick
  split
  · rfl
  · split <;> exact h

theorem ended_run (h : s.ended = true) (ticks : List Nat) :
    (run base limit probing s ticks).ended = true := by
  induction ticks generalizing s with
  | nil => exact h
  | cons ms ticks ih => exact ih (ended_tick h ms)

/-- A tick that is not too long uses up as much of the patience as it lasts, but for one overrun. The
overrun is shorter than the tick: the period was not over when it began. -/
theorem patience_tick_le (h : Valid base limit s) (few : s.fails < limit) {ms : Nat} (short : ms ≤ δ + 1) :
    patience base limit (tick base limit false s ms) +
        (limit - (tick base limit false s ms).fails) * δ + s.elapsed + ms ≤
      patience base limit s + (limit - s.fails) * δ + (tick base limit false s ms).elapsed := by
  rcases tick_cases base limit s ms with ⟨hmany, -⟩ | ⟨-, -, heq⟩ | ⟨-, -, heq⟩
  · omega
  · have hearly := h.early
    have hoverruns : (limit - s.fails) * δ = (limit - (s.fails + 1)) * δ + δ := by
      rw [← Nat.succ_mul]
      congr 1
      omega
    rw [heq, ← patience_double few (s.sent + 1) s.ended, hoverruns]
    dsimp only
    omega
  · rw [heq]
    show patience base limit s + (limit - s.fails) * δ + s.elapsed + ms ≤
      patience base limit s + (limit - s.fails) * δ + (s.elapsed + ms)
    omega

/-- **Everybody gives up in the end**, at the first tick behind the patience and the overruns. -/
theorem ended_of_lt (h : Valid base limit s) {ticks : List Nat} (short : ∀ ms ∈ ticks, ms ≤ δ + 1)
    (long : patience base limit s + (limit - s.fails) * δ < s.elapsed + ticks.sum) :
    (run base limit false s ticks).ended = true := by
  induction ticks generalizing s with
  | nil =>
    exfalso
    rw [List.sum_nil] at long
    by_cases hfew : s.fails < limit
    · have hearly := h.early
      have hsome : s.due base ≤ patience base limit s := due_le_patience hfew
      omega
    · have hfresh := h.fresh (by have := h.within; omega)
      omega
  | cons ms ticks ih =>
    obtain ⟨hhead, hrest⟩ := List.forall_mem_cons.mp short
    rw [List.sum_cons] at long
    by_cases hfew : s.fails < limit
    · have hused := patience_tick_le h hfew hhead
      exact ih (h.tick ms) hrest (by omega)
    · refine ended_run ?_ ticks
      rw [tick, if_pos (Nat.le_of_not_lt hfew)]

/-- While something is left to wait for, a tick for each period is more than the overruns. -/
theorem ended_of_le (h : Valid base limit s) (few : s.fails < limit) (pos : 0 < δ) {ticks : List Nat}
    (short : ∀ ms ∈ ticks, ms ≤ δ)
    (long : patience base limit s + (limit - s.fails) * δ ≤ s.elapsed + ticks.sum) :
    (run base limit false s ticks).ended = true := by
  obtain ⟨d, rfl⟩ : ∃ d, δ = d + 1 := ⟨δ - 1, by omega⟩
  refine ended_of_lt h short (Nat.lt_of_lt_of_le ?_ long)
  have hless : (limit - s.fails) * d < (limit - s.fails) * (d + 1) :=
    Nat.mul_lt_mul_of_pos_left (Nat.lt_succ_self d) (by omega)
  omega

/-- The repetitions are the failures counted. -/
theorem sent_run (base limit : Nat) (s : State) (ticks : List Nat) :
    (run base limit false s ticks).sent + s.fails = s.sent + (run base limit false s ticks).fails := by
  induction ticks generalizing s with
  | nil => rfl
  | cons ms ticks ih =>
    have hrest := ih (tick base limit false s ms)
    show (run base limit false (tick base limit false s ms) ticks).sent + _ =
      _ + (run base limit false (tick base limit false s ms) ticks).fails
    rcases tick_cases base limit s ms with ⟨-, heq⟩ | ⟨-, -, heq⟩ | ⟨-, -, heq⟩
    all_goals
      rw [heq] at hrest ⊢
      dsimp only at hrest
      omega

/-! ## Probing -/

/-- What a tick does to a party that probes. -/
theorem probe_cases (few : s.fails < limit) (ms : Nat) :
    s.due base ≤ s.elapsed + ms ∧
        tick base limit true s ms = ⟨0, s.fails, 0, s.sent + 1, s.ended⟩ ∨
      s.elapsed + ms < s.due base ∧ tick base limit true s ms = { s with elapsed := s.elapsed + ms } := by
  unfold tick
  rw [if_neg (Nat.not_le_of_lt few)]
  by_cases hdue : s.due base ≤ s.elapsed + ms
  · rw [if_pos hdue]
    exact .inl ⟨hdue, rfl⟩
  · rw [if_neg hdue]
    exact .inr ⟨Nat.lt_of_not_le hdue, rfl⟩

/-- **Probing never ends.** The probes come one for each base timeout, up to the overruns. -/
theorem probes (few : s.fails < limit) (early : s.elapsed < s.due base) (pos : 0 < base) {ticks : List Nat}
    (short : ∀ ms ∈ ticks, ms ≤ δ) : ∃ n,
    (run base limit true s ticks).ended = s.ended ∧ (run base limit true s ticks).fails = s.fails ∧
      (run base limit true s ticks).sent = s.sent + n ∧
      s.elapsed + ticks.sum < s.due base + n * (base + δ) ∧
      (n = 0 ∨ s.due base + n * base ≤ s.elapsed + ticks.sum + base) := by
  induction ticks generalizing s with
  | nil =>
    refine ⟨0, rfl, rfl, rfl, ?_, .inl rfl⟩
    rw [List.sum_nil]
    omega
  | cons ms ticks ih =>
    obtain ⟨hhead, hrest⟩ := List.forall_mem_cons.mp short
    rw [List.sum_cons]
    show ∃ n, (run base limit true (tick base limit true s ms) ticks).ended = _ ∧
      (run base limit true (tick base limit true s ms) ticks).fails = _ ∧
      (run base limit true (tick base limit true s ms) ticks).sent = _ ∧ _
    rcases probe_cases few ms with ⟨hdue, heq⟩ | ⟨hquiet, heq⟩
    · have hbase : State.due base ⟨0, s.fails, 0, s.sent + 1, s.ended⟩ = base := Nat.mul_one base
      rw [heq]
      obtain ⟨n, hended, hfails, hsent, hless, hmore⟩ := ih (s := ⟨0, s.fails, 0, s.sent + 1, s.ended⟩)
        few (by rw [hbase]; exact pos) hrest
      rw [hbase] at hless hmore
      dsimp only at hless hmore
      refine ⟨n + 1, hended, hfails, by rw [hsent]; dsimp only; omega, ?_, .inr ?_⟩
      · rw [Nat.succ_mul]
        omega
      · rw [Nat.succ_mul]
        rcases hmore with hnone | hmore
        · rw [hnone, Nat.zero_mul]
          omega
        · omega
    · rw [heq]
      obtain ⟨n, hended, hfails, hsent, hless, hmore⟩ :=
        ih (s := { s with elapsed := s.elapsed + ms }) few hquiet hrest
      change s.elapsed + ms + _ < s.due base + _ at hless
      change _ ∨ s.due base + _ ≤ s.elapsed + ms + _ + _ at hmore
      exact ⟨n, hended, hfails, hsent, by omega, by omega⟩

end Backoff
