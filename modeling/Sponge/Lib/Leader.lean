import Mathlib.Data.List.Induction
import Mathlib.Tactic.Common

/-!
# The leader of a scan

A scan runs over a list and keeps a leader: the first item leads, and an item takes over when its
`strength` is at least the `guard` of the leader at the time. The guard need not be the strength, so
the last leader need not be the strongest item.

`leader_eq_some` says which item leads in the end without running the scan: nothing after it reaches
its guard, and whatever guarded against it before was itself overcome in between.
-/

namespace Leader

variable {α : Type*} (strength guard : α → Nat)

/-- One turn: the item takes over when it reaches the leader's guard. -/
def challenge : Option α → α → Option α
  | none, x => some x
  | some z, x => if guard z ≤ strength x then some x else some z

/-- The leader after a scan. -/
def leader (l : List α) : Option α := l.foldl (challenge strength guard) none

/-- Nothing in the list reaches the guard of `f`. -/
def Unmatched (f : α) (after : List α) : Prop := ∀ k ∈ after, strength k < guard f

/-- Whatever guards against `f` was reached by something later that still comes before `f`. -/
def Open (before : List α) (f : α) : Prop :=
  ∀ a z b, before = a ++ z :: b → strength f < guard z → ∃ k ∈ b, guard z ≤ strength k

variable {strength guard} {l before after : List α} {f x z : α}

theorem leader_append_singleton (l : List α) (x : α) :
    leader strength guard (l ++ [x]) = challenge strength guard (leader strength guard l) x := by
  rw [leader, List.foldl_append]
  rfl

/-- A scan of images is led by the image of the leader. -/
theorem leader_map {β : Type*} (g : β → α) (l : List β) :
    leader strength guard (l.map g) =
      (leader (fun b => strength (g b)) (fun b => guard (g b)) l).map g := by
  induction l using List.reverseRecOn with
  | nil => rfl
  | append_singleton l b ih =>
    rw [List.map_append, List.map_singleton, leader_append_singleton, leader_append_singleton, ih]
    cases leader (fun b => strength (g b)) (fun b => guard (g b)) l with
    | none => rfl
    | some z =>
      simp only [challenge, Option.map_some]
      split <;> rfl

/-- A leader that nothing reaches keeps the lead. -/
theorem foldl_of_unmatched (h : Unmatched strength guard f after) :
    after.foldl (challenge strength guard) (some f) = some f := by
  induction after with
  | nil => rfl
  | cons k after ih =>
    have hk : ¬ guard f ≤ strength k := Nat.not_le_of_lt (h k List.mem_cons_self)
    rw [List.foldl_cons, challenge, if_neg hk]
    exact ih fun k' hk' => h k' (List.mem_cons_of_mem _ hk')

/-- After an item that nothing later reaches, the leader's guard is at least the item's. -/
theorem guard_le_leader (weak : ∀ x, guard x ≤ strength x) (before : List α)
    (h : Unmatched strength guard z after) :
    ∃ w, leader strength guard (before ++ z :: after) = some w ∧ guard z ≤ guard w := by
  -- the leader at `z` is `z` itself or one that guards against it, and it stays
  obtain ⟨w, hw, hle⟩ : ∃ w, challenge strength guard (leader strength guard before) z = some w ∧
      guard z ≤ guard w := by
    cases hlead : leader strength guard before with
    | none => exact ⟨z, rfl, Nat.le_refl _⟩
    | some w =>
      unfold challenge
      dsimp only
      split
      next => exact ⟨z, rfl, Nat.le_refl _⟩
      next hlt => exact ⟨w, rfl, Nat.le_trans (weak z) (Nat.le_of_lt (Nat.lt_of_not_le hlt))⟩
  refine ⟨w, ?_, hle⟩
  rw [leader, List.foldl_append, List.foldl_cons]
  change after.foldl _ (challenge strength guard (leader strength guard before) z) = _
  rw [hw]
  exact foldl_of_unmatched fun k hk => Nat.lt_of_lt_of_le (h k hk) hle

/-- What reaches the leader's guard finds the way open. -/
theorem open_of_reach (weak : ∀ x, guard x ≤ strength x)
    (reach : ∀ w, leader strength guard l = some w → guard w ≤ strength x) :
    Open strength guard l x := by
  intro a z b hsplit hlt
  by_contra hnone
  have hafter : Unmatched strength guard z b := fun k hk =>
    Nat.lt_of_not_le fun hle => hnone ⟨k, hk, hle⟩
  obtain ⟨w, hw, hle⟩ := guard_le_leader weak a hafter
  have hreach := reach w (hsplit ▸ hw)
  omega

/-- Every leader is where `leader_eq_some` says. -/
theorem exists_of_leader (weak : ∀ x, guard x ≤ strength x) (h : leader strength guard l = some f) :
    ∃ before after, l = before ++ f :: after ∧ Unmatched strength guard f after ∧
      Open strength guard before f := by
  induction l using List.reverseRecOn generalizing f with
  | nil => cases h
  | append_singleton l x ih =>
    rw [leader_append_singleton] at h
    cases hlead : leader strength guard l with
    | none =>
      rw [hlead] at h
      cases h
      refine ⟨l, [], rfl, nofun, open_of_reach weak fun w hw => ?_⟩
      rw [hlead] at hw
      cases hw
    | some w =>
      rw [hlead, challenge] at h
      split at h
      next hreach =>
        cases h
        refine ⟨l, [], rfl, nofun, open_of_reach weak fun w' hw' => ?_⟩
        rw [hlead] at hw'
        cases hw'
        exact hreach
      next hless =>
        cases h
        obtain ⟨before, after, hsplit, hafter, hopen⟩ := ih hlead
        refine ⟨before, after ++ [x], by rw [hsplit, List.append_assoc, List.cons_append], ?_, hopen⟩
        intro k hk
        rcases List.mem_append.mp hk with hk | hk
        · exact hafter k hk
        · rw [List.mem_singleton.mp hk]
          exact Nat.lt_of_not_le hless

/-- **Which item leads in the end.** -/
theorem leader_eq_some (weak : ∀ x, guard x ≤ strength x) :
    leader strength guard l = some f ↔
      ∃ before after, l = before ++ f :: after ∧ Unmatched strength guard f after ∧
        Open strength guard before f := by
  refine ⟨exists_of_leader weak, fun ⟨before, after, hsplit, hafter, hopen⟩ => ?_⟩
  rw [hsplit, leader, List.foldl_append, List.foldl_cons]
  change after.foldl _ (challenge strength guard (leader strength guard before) f) = _
  have htake : challenge strength guard (leader strength guard before) f = some f := by
    cases hlead : leader strength guard before with
    | none => rfl
    | some z =>
      obtain ⟨a, b, hbefore, hb, -⟩ := exists_of_leader weak hlead
      rw [challenge, if_pos]
      by_contra hlt
      obtain ⟨k, hk, hle⟩ := hopen a z b hbefore (Nat.lt_of_not_le hlt)
      exact absurd (hb k hk) (Nat.not_lt_of_le hle)
  rw [htake]
  exact foldl_of_unmatched hafter

theorem exists_leader (h : l ≠ []) : ∃ f, leader strength guard l = some f := by
  induction l using List.reverseRecOn with
  | nil => exact absurd rfl h
  | append_singleton l x ih =>
    rw [leader_append_singleton]
    cases leader strength guard l with
    | none => exact ⟨x, rfl⟩
    | some z =>
      unfold challenge
      dsimp only
      split
      · exact ⟨x, rfl⟩
      · exact ⟨z, rfl⟩

end Leader
