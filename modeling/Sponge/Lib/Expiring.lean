import Sponge.Lib.SortedMap

/-!
# A map whose entries expire

A cache learns values for keys and forgets each of them a fixed time after it was learned last. The
history is a list of lessons, oldest first; `live` says what the cache should hold of it now: the
value of the latest lesson for the key, while that lesson is younger than the time to live.

`Agrees` ties a sorted map of values with their expiry times to the history. Storing a lesson
(`Agrees.learn`) and dropping the entries whose time has come (`Agrees.expire`) keep it.
-/

namespace Expiring

/-- A value learned for a key, and when. -/
structure Lesson (κ α : Type*) where
  key : κ
  value : α
  time : Nat

variable {κ α : Type*} [DecidableEq κ] {ttl now : Nat} {lessons : List (Lesson κ α)}

/-- The latest lesson for a key. -/
def latest (lessons : List (Lesson κ α)) (k : κ) : Option (Lesson κ α) :=
  (lessons.filter fun e => e.key = k).getLast?

/-- What is known of a key now: its latest value, if that is younger than `ttl`. -/
def live (ttl now : Nat) (lessons : List (Lesson κ α)) (k : κ) : Option α :=
  (latest lessons k).bind fun e => if now - e.time < ttl then some e.value else none

theorem latest_concat_self (lessons : List (Lesson κ α)) (k : κ) (v : α) (t : Nat) :
    latest (lessons ++ [⟨k, v, t⟩]) k = some ⟨k, v, t⟩ := by
  simp [latest]

theorem latest_concat_ne {k k' : κ} (h : k' ≠ k) (lessons : List (Lesson κ α)) (v : α) (t : Nat) :
    latest (lessons ++ [⟨k, v, t⟩]) k' = latest lessons k' := by
  simp [latest, h.symm]

theorem mem_of_latest {k : κ} {e : Lesson κ α} (h : latest lessons k = some e) : e ∈ lessons :=
  (List.mem_filter.mp (List.mem_of_getLast? h)).1

section Map

variable [LT κ] {m : SortedMap κ (α × Nat)}

/-- The map holds, for every key, the latest value while it is young, with the time it expires. -/
structure Agrees (ttl now : Nat) (lessons : List (Lesson κ α)) (m : SortedMap κ (α × Nat)) : Prop where
  past : ∀ e ∈ lessons, e.time ≤ now
  held : ∀ k, m.find? k = (latest lessons k).bind fun e =>
    if now < e.time + ttl then some (e.value, e.time + ttl) else none

theorem agrees_empty (ttl now : Nat) :
    Agrees ttl now ([] : List (Lesson κ α)) SortedMap.empty where
  past := fun _ h => by cases h
  held := fun _ => rfl

/-- What an agreeing map answers is what is known now. -/
theorem Agrees.live_eq (h : Agrees ttl now lessons m) (k : κ) :
    (m.find? k).map Prod.fst = live ttl now lessons k := by
  rw [h.held, live]
  cases hlast : latest lessons k with
  | none => rfl
  | some e =>
    have hpast := h.past e (mem_of_latest hlast)
    simp only [Option.bind_some]
    by_cases hyoung : now < e.time + ttl
    · simp [hyoung, show now - e.time < ttl by omega]
    · simp [hyoung, show ¬ now - e.time < ttl by omega]

variable [LE κ] [Std.LawfulOrderLT κ]

theorem Agrees.expire (h : Agrees ttl now lessons m) {later : Nat} (le : now ≤ later) :
    Agrees ttl later lessons (m.filter fun e => later < e.2.2) where
  past := fun e he => Nat.le_trans (h.past e he) le
  held := by
    intro k
    rw [SortedMap.find?_filter, h.held]
    cases latest lessons k with
    | none => rfl
    | some e =>
      simp only [Option.bind_some]
      by_cases hlater : later < e.time + ttl
      · simp [hlater, show now < e.time + ttl by omega]
      · by_cases hnow : now < e.time + ttl
        · simp [Option.filter, hlater, hnow]
        · simp [hlater, hnow]

variable [DecidableLT κ] [Std.IsLinearOrder κ]

theorem Agrees.learn (h : Agrees ttl now lessons m) (young : 0 < ttl) (k : κ) (v : α) :
    Agrees ttl now (lessons ++ [⟨k, v, now⟩]) (m.insert k (v, now + ttl)) where
  past := by
    intro e he
    rcases List.mem_append.mp he with hold | hnew
    · exact h.past e hold
    · simp [List.mem_singleton.mp hnew]
  held := by
    intro k'
    by_cases hk : k' = k
    · subst hk
      simp [latest_concat_self, young]
    · rw [SortedMap.find?_insert_ne hk, latest_concat_ne hk, h.held]

end Map

end Expiring
