import Mathlib.Data.List.Pairwise
import Mathlib.Tactic.Common

/-!
# Sorted maps, as ordered association lists

A map whose keys are kept in order, the way an ordered container iterates: the entries are a list
with strictly growing keys, and the structure carries that order, so no operation can build an
unordered map. The order is what makes an iterator meaningful: `lower?` is the entry just before a
key, `from` the entries at a key and after it, `entries.reverse` the walk from the last entry back.

The laws read every operation through membership of entries (`mem_insert`, `mem_erase`), so a
property of all entries moves through a chain of operations without opening their definitions.
The keys are any linear order of the standard library.
-/

/-- A map with its entries in strictly growing key order. -/
structure SortedMap (κ α : Type*) [LT κ] where
  entries : List (κ × α)
  sorted : entries.Pairwise (fun a b => a.1 < b.1)

namespace SortedMap

open Std

variable {κ α : Type*} [LT κ] {m : SortedMap κ α} {k : κ} {v : α} {e : κ × α}

/-- The map with no entry. -/
def empty : SortedMap κ α := ⟨[], List.Pairwise.nil⟩

/-- Two maps with the same entries are the same map. -/
@[ext] theorem ext {m m' : SortedMap κ α} (h : m.entries = m'.entries) : m = m' := by
  cases m
  cases m'
  cases h
  rfl

instance [DecidableEq κ] [DecidableEq α] : DecidableEq (SortedMap κ α) := fun m m' =>
  decidable_of_iff (m.entries = m'.entries) ⟨SortedMap.ext, congrArg entries⟩

/-- The number of entries. -/
def size (m : SortedMap κ α) : Nat := m.entries.length

/-- Keep the entries that pass a test. -/
def filter (m : SortedMap κ α) (keep : κ × α → Bool) : SortedMap κ α where
  entries := m.entries.filter keep
  sorted := m.sorted.filter _

theorem mem_filter {keep : κ × α → Bool} :
    e ∈ (m.filter keep).entries ↔ e ∈ m.entries ∧ keep e = true :=
  List.mem_filter

/-- An entry that none precedes is the first. -/
theorem entries_of_least (he : e ∈ m.entries) (least : ∀ a ∈ m.entries, ¬ a.1 < e.1) :
    ∃ rest, m.entries = e :: rest := by
  have hsorted := m.sorted
  cases hentries : m.entries with
  | nil =>
    rw [hentries] at he
    cases he
  | cons a l =>
    rw [hentries] at he hsorted least
    rcases List.mem_cons.mp he with rfl | hlater
    · exact ⟨l, rfl⟩
    · exact absurd ((List.pairwise_cons.mp hsorted).1 e hlater) (least a List.mem_cons_self)

/-! ## Keys that can be compared for equality -/

section Keys

variable [DecidableEq κ]

/-- The value stored at a key. -/
def find? (m : SortedMap κ α) (k : κ) : Option α :=
  (m.entries.find? (fun e => e.1 = k)).map Prod.snd

/-- Is there an entry at the key? -/
def contains (m : SortedMap κ α) (k : κ) : Bool := m.entries.any (fun e => e.1 = k)

/-- Remove the entry at a key, if there is one. -/
def erase (m : SortedMap κ α) (k : κ) : SortedMap κ α where
  entries := m.entries.filter (fun e => e.1 ≠ k)
  sorted := m.sorted.filter _

theorem mem_erase : e ∈ (m.erase k).entries ↔ e ∈ m.entries ∧ e.1 ≠ k := by
  simp only [erase, List.mem_filter, ne_eq, decide_not, Bool.not_eq_true', decide_eq_false_iff_not]

theorem find?_eq_none : m.find? k = none ↔ ∀ e ∈ m.entries, e.1 ≠ k := by
  rw [find?, Option.map_eq_none_iff, List.find?_eq_none]
  simp only [decide_eq_true_eq, ne_eq]

@[simp] theorem find?_erase_self : (m.erase k).find? k = none :=
  find?_eq_none.mpr fun _ he => (mem_erase.mp he).2

end Keys

/-! ## The iterator at a key, and the one just before it -/

section Iterators

variable [DecidableLT κ]

/-- The entry with the greatest key below `k`: what an iterator at `k` steps back to. -/
def lower? (m : SortedMap κ α) (k : κ) : Option (κ × α) :=
  (m.entries.filter (fun e => e.1 < k)).getLast?

/-- The entries at `k` and after it, in order: what an iterator at `k` runs through. -/
def «from» (m : SortedMap κ α) (k : κ) : List (κ × α) :=
  m.entries.filter (fun e => ¬ e.1 < k)

theorem mem_from : e ∈ m.from k ↔ e ∈ m.entries ∧ ¬ e.1 < k := by
  simp only [«from», List.mem_filter, decide_not, Bool.not_eq_true', decide_eq_false_iff_not]

theorem lower?_eq_none : m.lower? k = none ↔ ∀ e ∈ m.entries, ¬ e.1 < k := by
  rw [lower?, List.getLast?_eq_none_iff, List.filter_eq_nil_iff]
  simp only [decide_eq_true_eq]

/-- The entry before a key lies below the key, and no other entry lies between. -/
theorem lower?_eq_some (h : m.lower? k = some e) :
    e ∈ m.entries ∧ e.1 < k ∧ ∀ e' ∈ m.entries, e'.1 < k → e' = e ∨ e'.1 < e.1 := by
  obtain ⟨l, hl⟩ := List.getLast?_eq_some_iff.mp h
  have hmem : e ∈ m.entries.filter (fun e => e.1 < k) := by
    rw [hl]
    exact List.mem_append_right _ List.mem_cons_self
  have hpair := m.sorted.filter (fun e => e.1 < k)
  rw [hl, List.pairwise_append] at hpair
  refine ⟨(List.mem_filter.mp hmem).1, by simpa using (List.mem_filter.mp hmem).2, ?_⟩
  intro e' he' hlt
  have hmem' : e' ∈ m.entries.filter (fun e => e.1 < k) :=
    List.mem_filter.mpr ⟨he', by simpa using hlt⟩
  rw [hl, List.mem_append] at hmem'
  rcases hmem' with h' | h'
  · exact .inr (hpair.2.2 e' h' e List.mem_cons_self)
  · exact .inl (List.mem_singleton.mp h')

theorem from_filter (m : SortedMap κ α) (keep : κ × α → Bool) (k : κ) :
    (m.filter keep).from k = (m.from k).filter keep := by
  simp only [«from», filter, List.filter_filter, Bool.and_comm]

end Iterators

/-! ## Keys in an order -/

section Order

variable [LE κ] [LawfulOrderLT κ]

/-- A map holds at most one entry at a key. -/
theorem entry_unique {a b : κ × α} (ha : a ∈ m.entries) (hb : b ∈ m.entries) (hk : a.1 = b.1) :
    a = b := by
  by_contra hne
  let Apart : κ × α → κ × α → Prop := fun x y => x.1 < y.1 ∨ y.1 < x.1
  have symm : Std.Symm Apart := ⟨fun _ _ h => h.symm⟩
  have apart : Apart a b := (m.sorted.imp (S := Apart) Or.inl).forall ha hb hne
  rcases apart with h | h
  · exact lt_irrefl (hk ▸ h)
  · exact lt_irrefl (hk ▸ h)

theorem nodup_entries (m : SortedMap κ α) : m.entries.Nodup := by
  refine List.Pairwise.imp ?_ m.sorted
  intro a b hlt heq
  exact Std.lt_irrefl (heq ▸ hlt)

/-- Two maps that hold the same entries are the same map. -/
theorem ext_mem [IsLinearOrder κ] {m m' : SortedMap κ α}
    (h : ∀ e, e ∈ m.entries ↔ e ∈ m'.entries) : m = m' := by
  apply SortedMap.ext
  have hperm : m.entries.Perm m'.entries :=
    (List.perm_ext_iff_of_nodup (nodup_entries m) (nodup_entries m')).mpr h
  refine hperm.eq_of_pairwise (fun a b _ _ hab hba => ?_) m.sorted m'.sorted
  exact absurd (lt_trans hab hba) lt_irrefl

end Order

/-! ## Lookups and erasures -/

section Lookups

variable [LE κ] [DecidableEq κ] [LawfulOrderLT κ]

theorem find?_eq_some : m.find? k = some v ↔ (k, v) ∈ m.entries := by
  constructor
  · intro h
    obtain ⟨e, he, rfl⟩ := Option.map_eq_some_iff.mp h
    have hk : e.1 = k := by simpa using List.find?_some he
    exact hk ▸ List.mem_of_find?_eq_some he
  · intro h
    cases hf : m.entries.find? (fun e => e.1 = k) with
    | none =>
      have := List.find?_eq_none.mp hf _ h
      simp at this
    | some e =>
      have hk : e.1 = k := by simpa using List.find?_some hf
      have heq := entry_unique (List.mem_of_find?_eq_some hf) h hk
      rw [find?, hf, heq]
      rfl

theorem find?_erase_ne {k' : κ} (h : k' ≠ k) : (m.erase k).find? k' = m.find? k' := by
  refine Option.ext fun w => ?_
  rw [find?_eq_some, find?_eq_some, mem_erase]
  exact ⟨fun hm => hm.1, fun hm => ⟨hm, h⟩⟩

/-- Filtering keeps the value at a key when the entry passes. -/
theorem find?_filter (m : SortedMap κ α) (keep : κ × α → Bool) (k : κ) :
    (m.filter keep).find? k = (m.find? k).filter fun v => keep (k, v) := by
  refine Option.ext fun v => ?_
  rw [Option.filter_eq_some_iff, find?_eq_some, find?_eq_some, mem_filter]

theorem find?_filter_of_none {keep : κ × α → Bool} (h : m.find? k = none) :
    (m.filter keep).find? k = none := by
  rw [find?_filter, h]
  rfl

/-- Erasing the first entry leaves the rest. -/
theorem entries_erase_head {rest : List (κ × α)} (h : m.entries = e :: rest) :
    (m.erase e.1).entries = rest := by
  have hsorted := m.sorted
  rw [h] at hsorted
  rw [erase]
  dsimp only
  rw [h, List.filter_cons_of_neg (by simp), List.filter_eq_self]
  intro a ha
  have hlt := (List.pairwise_cons.mp hsorted).1 a ha
  simpa using fun heq : a.1 = e.1 => lt_irrefl (heq ▸ hlt)

/-- Erasing the last entry leaves what stood before it. -/
theorem entries_erase_last {front : List (κ × α)} (h : m.entries = front ++ [e]) :
    (m.erase e.1).entries = front := by
  have hsorted := m.sorted
  rw [h, List.pairwise_append] at hsorted
  rw [erase]
  dsimp only
  rw [h, List.filter_append, List.filter_cons_of_neg (by simp), List.filter_nil, List.append_nil,
    List.filter_eq_self]
  intro a ha
  have hlt := hsorted.2.2 a ha e List.mem_cons_self
  simpa using fun heq : a.1 = e.1 => lt_irrefl (heq ▸ hlt)

end Lookups

/-! ## Stores -/

section Stores

variable [LE κ] [DecidableLT κ] [IsLinearOrder κ] [LawfulOrderLT κ]

/-- Store a value at a key, over whatever stood there. -/
def insert (m : SortedMap κ α) (k : κ) (v : α) : SortedMap κ α where
  entries := m.entries.filter (fun e => e.1 < k) ++ (k, v) :: m.entries.filter (fun e => k < e.1)
  sorted := by
    refine List.pairwise_append.mpr ⟨m.sorted.filter _, List.pairwise_cons.mpr ⟨?_, m.sorted.filter _⟩, ?_⟩
    · intro e he
      simpa using (List.mem_filter.mp he).2
    · intro a ha b hb
      have hak : a.1 < k := by simpa using (List.mem_filter.mp ha).2
      rcases List.mem_cons.mp hb with rfl | hb
      · exact hak
      · exact lt_trans hak (by simpa using (List.mem_filter.mp hb).2)

/-- The entries after a store: the stored one, and the old ones at other keys. -/
theorem mem_insert : e ∈ (m.insert k v).entries ↔ e = (k, v) ∨ e ∈ m.entries ∧ e.1 ≠ k := by
  simp only [insert, List.mem_append, List.mem_cons, List.mem_filter, decide_eq_true_eq]
  constructor
  · rintro (⟨h, hlt⟩ | rfl | ⟨h, hlt⟩)
    · exact .inr ⟨h, fun heq => lt_irrefl (heq ▸ hlt)⟩
    · exact .inl rfl
    · exact .inr ⟨h, fun heq => lt_irrefl (heq ▸ hlt)⟩
  · rintro (rfl | ⟨h, hne⟩)
    · exact .inr (.inl rfl)
    · rcases lt_trichotomy e.1 k with hlt | heq | hlt
      · exact .inl ⟨h, hlt⟩
      · exact absurd heq hne
      · exact .inr (.inr ⟨h, hlt⟩)

/-- Storing what is stored already changes nothing. -/
theorem insert_of_mem (h : (k, v) ∈ m.entries) : m.insert k v = m := by
  obtain ⟨before, after, hsplit⟩ := List.append_of_mem h
  have hsorted := m.sorted
  rw [hsplit, List.pairwise_append, List.pairwise_cons] at hsorted
  obtain ⟨-, ⟨hafter, -⟩, hbefore⟩ := hsorted
  have hlow : m.entries.filter (fun e => e.1 < k) = before := by
    rw [hsplit, List.filter_append, List.filter_eq_self.mpr, List.filter_eq_nil_iff.mpr, List.append_nil]
    · intro e he
      rcases List.mem_cons.mp he with rfl | he
      · simpa using Std.lt_irrefl
      · simpa using fun h => lt_irrefl (lt_trans (hafter e he) h)
    · intro e he
      simpa using hbefore e he (k, v) List.mem_cons_self
  have hhigh : m.entries.filter (fun e => k < e.1) = after := by
    rw [hsplit, List.filter_append, List.filter_eq_nil_iff.mpr, List.nil_append, List.filter_cons_of_neg,
      List.filter_eq_self.mpr]
    · intro e he
      simpa using hafter e he
    · simpa using Std.lt_irrefl
    · intro e he
      simpa using fun h => lt_irrefl (lt_trans (hbefore e he (k, v) List.mem_cons_self) h)
  apply SortedMap.ext
  rw [insert]
  dsimp only
  rw [hlow, hhigh, hsplit]

/-- Storing at the last key replaces the last entry. -/
theorem entries_insert_last {front : List (κ × α)} (h : m.entries = front ++ [e]) (v : α) :
    (m.insert e.1 v).entries = front ++ [(e.1, v)] := by
  have hsorted := m.sorted
  rw [h, List.pairwise_append] at hsorted
  have hbelow : ∀ a ∈ front, a.1 < e.1 := fun a ha => hsorted.2.2 a ha e List.mem_cons_self
  have hlow : m.entries.filter (fun a => a.1 < e.1) = front := by
    rw [h, List.filter_append, List.filter_cons_of_neg (by simpa using Std.lt_irrefl), List.filter_nil,
      List.append_nil, List.filter_eq_self]
    intro a ha
    simpa using hbelow a ha
  have hhigh : m.entries.filter (fun a => e.1 < a.1) = [] := by
    rw [h, List.filter_append, List.filter_cons_of_neg (by simpa using Std.lt_irrefl), List.filter_nil,
      List.append_nil, List.filter_eq_nil_iff]
    intro a ha
    simpa using fun hlt => lt_irrefl (lt_trans hlt (hbelow a ha))
  rw [insert]
  dsimp only
  rw [hlow, hhigh]

/-- The first entry after a store is the stored one, or the first one before. -/
theorem head?_insert (h : e ∈ (m.insert k v).entries.head?) : e = (k, v) ∨ e ∈ m.entries.head? := by
  have hsorted := m.sorted
  rw [insert] at h
  dsimp only at h
  cases hentries : m.entries with
  | nil =>
    rw [hentries] at h
    exact .inl (Option.mem_some.mp h).symm
  | cons a l =>
    rw [hentries] at h hsorted
    by_cases hlt : a.1 < k
    · rw [List.filter_cons_of_pos (by simpa using hlt)] at h
      exact .inr h
    · have hnone : (a :: l).filter (fun e => e.1 < k) = [] := by
        rw [List.filter_eq_nil_iff]
        intro b hb
        rcases List.mem_cons.mp hb with rfl | hb
        · simpa using hlt
        · simpa using fun hbk => hlt (lt_trans ((List.pairwise_cons.mp hsorted).1 b hb) hbk)
      rw [hnone] at h
      exact .inl (Option.mem_some.mp h).symm

/-- The greatest entry below a key is the entry before it. -/
theorem lower?_of_greatest (he : e ∈ m.entries) (hlt : e.1 < k)
    (greatest : ∀ e' ∈ m.entries, e'.1 < k → e' = e ∨ e'.1 < e.1) : m.lower? k = some e := by
  cases h : m.lower? k with
  | none => exact absurd hlt (lower?_eq_none.mp h e he)
  | some e' =>
    obtain ⟨he', hlt', hlast⟩ := lower?_eq_some h
    rcases greatest e' he' hlt' with rfl | hless
    · rfl
    · rcases hlast e he hlt with rfl | hless'
      · rfl
      · exact absurd (lt_trans hless hless') lt_irrefl

variable [DecidableEq κ]

/-- Storing at a key puts the entry beside what erasing the key leaves. -/
theorem perm_insert (m : SortedMap κ α) (k : κ) (v : α) :
    (m.insert k v).entries.Perm ((k, v) :: (m.erase k).entries) := by
  apply (List.perm_ext_iff_of_nodup (nodup_entries _) ?_).mpr
  · intro e
    rw [mem_insert, List.mem_cons, mem_erase]
  · refine List.nodup_cons.mpr ⟨fun h => ?_, nodup_entries _⟩
    exact (mem_erase.mp h).2 rfl

/-- An entry, beside what erasing its key leaves, is the whole map. -/
theorem perm_erase (h : e ∈ m.entries) : m.entries.Perm (e :: (m.erase e.1).entries) := by
  have hperm := perm_insert m e.1 e.2
  rwa [insert_of_mem h] at hperm

@[simp] theorem find?_insert_self : (m.insert k v).find? k = some v :=
  find?_eq_some.mpr (mem_insert.mpr (.inl rfl))

theorem find?_insert_ne {k' : κ} (h : k' ≠ k) : (m.insert k v).find? k' = m.find? k' := by
  refine Option.ext fun w => ?_
  rw [find?_eq_some, find?_eq_some, mem_insert]
  constructor
  · rintro (heq | ⟨hm, _⟩)
    · exact absurd (congrArg Prod.fst heq) h
    · exact hm
  · exact fun hm => .inr ⟨hm, h⟩

end Stores

end SortedMap
