import Mathlib.Data.List.Perm.Basic
import Mathlib.Tactic.Common

/-!
# Values with counted owners

A `Shared` store keeps values under addresses and counts the owners of each. A value is made with one
owner, owners come and go, and the value is freed when the last one goes; its address is not used again.
The store does not know who its owners are, so an owner that goes twice, or reads behind its time, is not
excluded by the store itself.

What excludes it is an account of the owners: a list of addresses, with repetitions, that has each
address as often as the store counts owners (`Owned`). `Moves s s' old new` is the rule for one party: it
turns its part `old` of the account into `new`, and what anybody else owns keeps its value. Moves follow
each other (`Moves.trans`) and leave the rest of one's own part alone (`Moves.frame`).

Where several parties share a store, the account is made of their parts, and a move of one of them is a
move of all (`Owned.assign`, `Owned.add`).
-/

/-- Values under addresses, each with the number of its owners besides the first. -/
structure Shared (α : Type*) where
  cells : List (Option (α × Nat))

namespace Shared

variable {α : Type*}

/-- The store with no values. -/
def empty : Shared α := ⟨[]⟩

variable (s : Shared α)

/-- What stands at an address. -/
def cell (a : Nat) : Option (α × Nat) := s.cells[a]?.join

/-- The value at an address, while it has owners. -/
def value (a : Nat) : Option α := (s.cell a).map Prod.fst

/-- How many owners the value at an address has. -/
def owners (a : Nat) : Nat := (s.cell a).elim 0 fun c => c.2 + 1

/-- The address of the next value. -/
def next : Nat := s.cells.length

/-- Store a value, with one owner. -/
def make (v : α) : Shared α := ⟨s.cells ++ [some (v, 0)]⟩

/-- One more owner. -/
def retain (a : Nat) : Shared α :=
  ⟨s.cells.modify a fun c => c.map fun kept => (kept.1, kept.2 + 1)⟩

/-- One owner fewer; the last one frees the value. -/
def release (a : Nat) : Shared α :=
  ⟨s.cells.modify a fun c => c.bind fun kept =>
    match kept.2 with
    | 0 => none
    | more + 1 => some (kept.1, more)⟩

theorem cell_make (v : α) (a : Nat) :
    (s.make v).cell a = if a = s.next then some (v, 0) else s.cell a := by
  rcases Nat.lt_trichotomy a s.cells.length with hlt | rfl | hgt
  · simp [make, cell, next, List.getElem?_append_left hlt, Nat.ne_of_lt hlt]
  · simp [make, cell, next]
  · have hbefore : s.cells[a]? = none := List.getElem?_eq_none (Nat.le_of_lt hgt)
    have hafter : (s.cells ++ [some (v, 0)])[a]? = none := by
      apply List.getElem?_eq_none
      rw [List.length_append]
      exact hgt
    rw [make, cell, hafter, if_neg (show a ≠ s.next from Nat.ne_of_gt hgt), cell, hbefore]

theorem cell_retain (a b : Nat) : (s.retain a).cell b =
    if a = b then (s.cell b).map (fun kept => (kept.1, kept.2 + 1)) else s.cell b := by
  by_cases h : a = b
  · subst h
    cases hcell : s.cells[a]? <;> simp [retain, cell, hcell]
  · simp [retain, cell, h]

theorem cell_release (a b : Nat) : (s.release a).cell b =
    if a = b then (s.cell b).bind (fun kept =>
      match kept.2 with
      | 0 => none
      | more + 1 => some (kept.1, more)) else s.cell b := by
  by_cases h : a = b
  · subst h
    cases hcell : s.cells[a]? <;> simp [release, cell, hcell]
  · simp [release, cell, h]

theorem cell_next : s.cell s.next = none := by
  simp [cell, next]

@[simp] theorem value_retain (a b : Nat) : (s.retain a).value b = s.value b := by
  unfold value
  rw [cell_retain]
  split
  · rw [Option.map_map]
    rfl
  · rfl

/-! ## The account of the owners -/

/-- The list has each address as often as the store counts owners. -/
def Owned (handles : List Nat) : Prop := ∀ a, s.owners a = handles.count a

theorem owned_empty : (empty : Shared α).Owned [] := fun _ => rfl

/-- One party turns its owners `old` into `new`. -/
structure Moves (s s' : Shared α) (old new : List Nat) : Prop where
  owners : ∀ a, old.count a ≤ s.owners a → s'.owners a + old.count a = s.owners a + new.count a
  value : ∀ a, old.count a < s.owners a → s'.value a = s.value a

variable {s} {s' s'' : Shared α} {old mid new extra : List Nat}

theorem Moves.refl (s : Shared α) (handles : List Nat) : Moves s s handles handles :=
  ⟨fun _ _ => rfl, fun _ _ => rfl⟩

theorem Moves.trans (first : Moves s s' old mid) (second : Moves s' s'' mid new) :
    Moves s s'' old new := by
  constructor
  · intro a hle
    have hfirst := first.owners a hle
    have hsecond := second.owners a (by omega)
    omega
  · intro a hlt
    have hfirst := first.owners a (Nat.le_of_lt hlt)
    rw [second.value a (by omega), first.value a hlt]

/-- The rest of one's own part is left alone. -/
theorem Moves.frame (h : Moves s s' old new) (extra : List Nat) :
    Moves s s' (old ++ extra) (new ++ extra) := by
  constructor
  · intro a hle
    rw [List.count_append] at hle
    have hcount := h.owners a (by omega)
    rw [List.count_append, List.count_append]
    omega
  · intro a hlt
    rw [List.count_append] at hlt
    exact h.value a (by omega)

theorem Moves.perm (h : Moves s s' old new) (same : new.Perm mid) : Moves s s' old mid :=
  ⟨fun a hle => by rw [h.owners a hle, same.count_eq], h.value⟩

theorem moves_make (s : Shared α) (v : α) : Moves s (s.make v) [] [s.next] := by
  constructor
  · intro a _
    unfold owners
    rw [cell_make]
    split
    next h => simp [h, cell_next]
    next h => simp [Ne.symm h]
  · intro a hlt
    have hne : a ≠ s.next := by
      rintro rfl
      simp [owners, cell_next] at hlt
    rw [value, cell_make, if_neg hne, value]

theorem value_make (s : Shared α) (v : α) : (s.make v).value s.next = some v := by
  simp [value, cell_make]

/-- Whoever finds a value with owners may own it too. -/
theorem moves_retain {a : Nat} (live : 0 < s.owners a) : Moves s (s.retain a) [] [a] := by
  constructor
  · intro b _
    unfold owners at live ⊢
    rw [cell_retain]
    split
    next h =>
      subst h
      cases hcell : s.cell a with
      | none => simp [hcell] at live
      | some kept => simp
    next h => simp [h]
  · intro b _
    rw [value_retain]

theorem moves_release (s : Shared α) (a : Nat) : Moves s (s.release a) [a] [] := by
  constructor
  · intro b hle
    unfold owners at hle ⊢
    rw [cell_release]
    split
    next h =>
      subst h
      cases hcell : s.cell a with
      | none => simp [hcell] at hle
      | some kept => rcases kept with ⟨v, _ | more⟩ <;> simp
    next h => simp [h]
  · intro b hlt
    unfold owners at hlt
    unfold value
    rw [cell_release]
    split
    next h =>
      subst h
      cases hcell : s.cell a with
      | none => rfl
      | some kept =>
        -- somebody else owns it too, so this is not the last owner
        rcases kept with ⟨v, _ | more⟩
        · simp [hcell] at hlt
        · simp
    next => rfl

/-- The store counts at least these owners. -/
def Holds (s : Shared α) (handles : List Nat) : Prop := ∀ a, handles.count a ≤ s.owners a

/-- A party that moves a part keeps what it has besides. -/
theorem Moves.kept (h : Moves s s' old new) (holds : s.Holds (old ++ extra)) :
    ∀ a ∈ extra, s'.value a = s.value a := by
  intro a ha
  have hcount := holds a
  have hpos := List.count_pos_iff.mpr ha
  rw [List.count_append] at hcount
  exact h.value a (by omega)

theorem Moves.holds (h : Moves s s' old new) (holds : s.Holds (old ++ extra)) :
    s'.Holds (new ++ extra) := by
  intro a
  have hcount := holds a
  have hmoved := (h.frame extra).owners a hcount
  omega

/-! ## Several parties -/

section Parties

variable {β : Type*} {parties : List β} {part : β → List Nat} {i : Nat} {x : β}

/-- The account is one party's part and that of the others. -/
theorem count_parties (part : β → List Nat) (hx : parties[i]? = some x) (a : Nat) :
    (parties.flatMap part).count a =
      (part x).count a + ((parties.eraseIdx i).flatMap part).count a := by
  obtain ⟨hi, rfl⟩ := List.getElem?_eq_some_iff.mp hx
  rw [← List.count_append, ← List.flatMap_cons]
  exact ((List.getElem_cons_eraseIdx_perm hi).flatMap_right part).count_eq a |>.symm

theorem Owned.holds (h : s.Owned (parties.flatMap part)) (hx : parties[i]? = some x) :
    s.Holds (part x) := by
  intro a
  have hcount := count_parties part hx a
  rw [h a]
  omega

/-- **A move of one party is a move of the whole account**, and the others keep their values. -/
theorem Owned.assign (h : s.Owned (parties.flatMap part)) (hx : parties[i]? = some x) {x' : β}
    (moves : Moves s s' (part x) (part x')) :
    s'.Owned ((parties.set i x').flatMap part) ∧
      ∀ k y, k ≠ i → parties[k]? = some y → ∀ a ∈ part y, s'.value a = s.value a := by
  have hlt : i < parties.length := (List.getElem?_eq_some_iff.mp hx).1
  constructor
  · intro a
    have hnew : (parties.set i x')[i]? = some x' := List.getElem?_set_self hlt
    have hbefore := count_parties part hx a
    have hafter := count_parties part hnew a
    have hmoved := moves.owners a (by rw [h a]; omega)
    rw [List.eraseIdx_set_eq] at hafter
    rw [h a] at hmoved
    omega
  · intro k y hk hy a ha
    have hother : y ∈ parties.eraseIdx i := List.mem_eraseIdx_iff_getElem?.mpr ⟨k, hk, hy⟩
    have hpos := List.count_pos_iff.mpr (List.mem_flatMap.mpr ⟨y, hother, ha⟩)
    have hcount := count_parties part hx a
    exact moves.value a (by rw [h a]; omega)

/-- A new party comes with owners of its own. -/
theorem Owned.add (h : s.Owned (parties.flatMap part)) {x' : β} (moves : Moves s s' [] (part x')) :
    s'.Owned ((parties ++ [x']).flatMap part) ∧
      ∀ (k : Nat) (y : β), parties[k]? = some y → ∀ a ∈ part y, s'.value a = s.value a := by
  constructor
  · intro a
    have hmoved := moves.owners a (Nat.zero_le _)
    rw [h a] at hmoved
    simpa using hmoved
  · intro k y hy a ha
    have hpos := List.count_pos_iff.mpr (List.mem_flatMap.mpr ⟨y, List.mem_of_getElem? hy, ha⟩)
    exact moves.value a (by rw [h a]; exact hpos)

end Parties

end Shared
