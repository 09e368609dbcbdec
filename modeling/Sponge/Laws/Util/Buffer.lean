import Mathlib.Data.List.Forall2
import Sponge.Util.Storage

/-!
# Laws.Util.Buffer — discontiguous strings behave like flat ones

First the values: a list of buffers is its concatenation, and `remove_prefix` drops from the front of it,
across pieces of any length (`removePieces_flat`).

Then the memory below them. `Denotes` reads a buffer in memory as a value, and every operation of a program
on its variables is the operation on their values (`Refines.step`), as long as the heap counts exactly the
buffers of all variables as owners. A variable's value is its own, so an operation on one variable is not
seen by the others, whichever strings they share.

There is one exception, which `append_cases` pins down: a list with buffers has no defined value once it is
appended to itself.
-/

namespace Sponge

open Shared (Owned Moves)

/-! ## Lists as values -/

section Pieces

variable {α β : Type} {size : α → Nat} {cut : (piece : α) → (n : Nat) → n < size piece → α}
  {what : String} {str : α → List β}

/-- **The loop drops from the front of the concatenation.** It throws exactly when there is less to drop;
`Good` are the pieces whose size and cut are those of the strings they show. -/
theorem removePieces_flat (Good : α → Prop) (hsize : ∀ x, Good x → size x = (str x).length)
    (hcut : ∀ x n h, Good x → Good (cut x n h) ∧ str (cut x n h) = (str x).drop n)
    (pieces : List α) (good : ∀ x ∈ pieces, Good x) (n : Nat) :
    let left := removePieces size cut what pieces n
    (∀ x ∈ left.1, Good x) ∧
      ((pieces.flatMap str).length < n ∧ left.2 = .error (.outOfRange what) ∨
        n ≤ (pieces.flatMap str).length ∧ left.2 = .ok () ∧
          left.1.flatMap str = (pieces.flatMap str).drop n) := by
  induction pieces generalizing n with
  | nil =>
    cases n with
    | zero => simp [removePieces]
    | succ n => simp [removePieces]
  | cons piece rest ih =>
    cases n with
    | zero => simpa [removePieces] using good
    | succ n =>
      have hpiece : Good piece := good piece List.mem_cons_self
      have hrest : ∀ x ∈ rest, Good x := fun x hx => good x (List.mem_cons_of_mem _ hx)
      have hlen := hsize piece hpiece
      rw [List.flatMap_cons, List.length_append]
      unfold removePieces
      split
      next hinside =>
        -- the front piece is longer than what is left to drop
        obtain ⟨hgood, hstr⟩ := hcut piece (n + 1) hinside hpiece
        refine ⟨?_, .inr ⟨by omega, rfl, ?_⟩⟩
        · intro x hx
          rcases List.mem_cons.mp hx with rfl | hx
          · exact hgood
          · exact hrest x hx
        · rw [List.flatMap_cons, hstr, List.drop_append_of_le_length (by omega)]
      next hpast =>
        -- the front piece goes as a whole, an empty one without lowering the count
        obtain ⟨hgood, hthrows | hdrops⟩ := ih hrest (n + 1 - size piece)
        · exact ⟨hgood, .inl ⟨by omega, hthrows.2⟩⟩
        · refine ⟨hgood, .inr ⟨by omega, hdrops.2.1, ?_⟩⟩
          have hgone : (str piece).drop (n + 1) = [] := List.drop_of_length_le (by omega)
          rw [hdrops.2.2, List.drop_append, hgone, List.nil_append, hlen]

end Pieces

namespace BufferList

theorem concatenate_append (l other : BufferList) :
    (l.append other).concatenate = l.concatenate ++ other.concatenate := by
  simp [concatenate, append]

/-- `remove_prefix` drops from the front of the concatenation, or throws when it is shorter. -/
theorem removePrefix_flat (l : BufferList) (n : Nat) :
    l.concatenate.length < n ∧
        (l.removePrefix n).2 = .error (.outOfRange "BufferList::remove_prefix") ∨
      n ≤ l.concatenate.length ∧ (l.removePrefix n).2 = .ok () ∧
        (l.removePrefix n).1.concatenate = l.concatenate.drop n :=
  (removePieces_flat (fun _ => True) (fun _ _ => rfl)
    (fun b n h _ => ⟨trivial, b.str_advance n (Nat.le_of_lt h)⟩) l.buffers (fun _ _ => trivial) n).2

end BufferList

/-! ## Buffers in memory -/

variable {heap heap' : Heap}

namespace Handle

/-- The address a buffer owns, if it points anywhere. -/
def address (b : Handle) : List Nat := b.storage.toList

/-- The buffer in memory is this value. -/
structure Denotes (heap : Heap) (b : Handle) (v : Buffer) : Prop where
  storage : b.storage.map heap.value = v.storage.map some
  offset : b.startingOffset = v.startingOffset

variable {b : Handle} {v : Buffer}

/-- A buffer stays the value it is while its string is kept. -/
theorem Denotes.keep (h : b.Denotes heap v) (kept : ∀ a ∈ b.address, heap'.value a = heap.value a) :
    b.Denotes heap' v := by
  refine ⟨?_, h.offset⟩
  rw [← h.storage]
  apply Option.map_congr
  intro a ha
  exact kept a (Option.mem_toList.mpr ha)

theorem Denotes.bind_value (h : b.Denotes heap v) : b.storage.bind heap.value = v.storage := by
  have hstorage := h.storage
  cases hb : b.storage with
  | none =>
    cases hv : v.storage with
    | none => rfl
    | some s => simp [hb, hv] at hstorage
  | some a =>
    cases hv : v.storage with
    | none => simp [hb, hv] at hstorage
    | some s => simpa [hb, hv] using hstorage

theorem Denotes.str (h : b.Denotes heap v) : b.str heap = v.str := by
  have hread := h.bind_value
  unfold Handle.str Buffer.str
  cases hstored : v.storage with
  | none => simp only [hread, hstored]
  | some s => simp only [hread, hstored, h.offset]

theorem Denotes.size (h : b.Denotes heap v) : b.size heap = v.size := by
  rw [Handle.size, h.str, Buffer.size]

theorem moves_copied (live : ∀ a ∈ b.address, 0 < heap.owners a) :
    Moves heap (b.copied heap) [] b.address := by
  unfold copied address at *
  cases hb : b.storage with
  | none => exact .refl heap []
  | some a => exact Shared.moves_retain (live a (by simp [hb]))

theorem value_copied (b : Handle) (a : Nat) : (b.copied heap).value a = heap.value a := by
  unfold copied
  split
  · rfl
  · rw [Shared.value_retain]

theorem moves_destroyed (b : Handle) : Moves heap (b.destroyed heap) b.address [] := by
  unfold destroyed address
  cases b.storage with
  | none => exact .refl heap []
  | some a => exact Shared.moves_release heap a

theorem removePrefix_error (h : b.Denotes heap v) {n : Nat} (short : v.size < n) :
    b.removePrefix heap n = ((heap, b), .error (.outOfRange "Buffer::remove_prefix")) := by
  rw [Handle.removePrefix, h.size, if_pos short]

/-- **Discarding from a buffer in memory is discarding from its value**, and moves its owner. -/
theorem removePrefix_ok (h : b.Denotes heap v) {n : Nat} (enough : n ≤ v.size) :
    let cut := b.removePrefix heap n
    cut.2 = .ok () ∧ cut.1.2.Denotes cut.1.1 (v.advance n enough) ∧
      Moves heap cut.1.1 b.address cut.1.2.address := by
  have hoffset := v.startingOffset_advance n enough
  have hstorage := v.storage_advance n enough
  rw [Handle.removePrefix, h.size, if_neg (Nat.not_lt_of_le enough)]
  dsimp only
  rw [h.bind_value, h.offset]
  split
  next hend =>
    rw [if_pos hend] at hstorage
    exact ⟨rfl, ⟨by rw [hstorage]; rfl, hoffset.symm⟩, b.moves_destroyed⟩
  next hend =>
    rw [if_neg hend] at hstorage
    exact ⟨rfl, ⟨by rw [hstorage, h.storage], hoffset.symm⟩, .refl heap _⟩

end Handle

namespace Handles

/-- The addresses a list of buffers owns. -/
def addresses (l : Handles) : List Nat := l.flatMap Handle.address

/-- The buffers in memory are these values, one by one. -/
abbrev Denotes (heap : Heap) (l : Handles) (values : List Buffer) : Prop :=
  List.Forall₂ (Handle.Denotes heap) l values

variable {l : Handles} {values : List Buffer}

theorem Denotes.keep (h : l.Denotes heap values)
    (kept : ∀ a ∈ l.addresses, heap'.value a = heap.value a) : l.Denotes heap' values := by
  induction h with
  | nil => exact .nil
  | cons hfront _ ih =>
    simp only [addresses, List.flatMap_cons, List.mem_append] at kept ih
    exact .cons (hfront.keep fun a ha => kept a (.inl ha)) (ih fun a ha => kept a (.inr ha))

theorem Denotes.concatenate (h : l.Denotes heap values) :
    Handles.concatenate heap l = values.flatMap Buffer.str := by
  unfold Handles.concatenate
  induction h with
  | nil => rfl
  | cons hfront _ ih => rw [List.flatMap_cons, List.flatMap_cons, hfront.str, ih]

theorem length_concatenate (heap : Heap) (l : Handles) :
    (Handles.concatenate heap l).length = Handles.size heap l := by
  simp only [Handles.concatenate, Handles.size, List.length_flatMap]
  rfl

theorem value_copied (l : Handles) (heap : Heap) (a : Nat) :
    (l.copied heap).value a = heap.value a := by
  unfold Handles.copied
  induction l generalizing heap with
  | nil => rfl
  | cons front rest ih => rw [List.foldl_cons, ih, Handle.value_copied]

theorem moves_copied (l : Handles) {heap : Heap} (live : ∀ a ∈ l.addresses, 0 < heap.owners a) :
    Moves heap (l.copied heap) [] l.addresses := by
  unfold Handles.copied addresses at *
  induction l generalizing heap with
  | nil => exact .refl heap []
  | cons front rest ih =>
    simp only [List.flatMap_cons, List.mem_append] at live
    have hfront := front.moves_copied fun a ha => live a (.inl ha)
    have hlive : ∀ a ∈ rest.flatMap Handle.address, 0 < (front.copied heap).owners a := by
      intro a ha
      have hmore := hfront.owners a (Nat.zero_le _)
      have hbefore := live a (.inr ha)
      simp only [List.count_nil] at hmore
      omega
    exact (hfront.trans ((ih hlive).frame front.address)).perm
      (List.flatMap_cons ▸ List.perm_append_comm)

theorem moves_destroyed (l : Handles) (heap : Heap) :
    Moves heap (l.destroyed heap) l.addresses [] := by
  unfold Handles.destroyed addresses
  induction l generalizing heap with
  | nil => exact .refl heap []
  | cons front rest ih =>
    rw [List.flatMap_cons]
    exact (front.moves_destroyed.frame _).trans (ih (front.destroyed heap))

/-- Between two queues the loop copies one buffer after the other. -/
theorem appendLoop_eq (heap : Heap) (l other : Handles) :
    l.appendLoop false heap other = some (other.copied heap, l ++ other) := by
  induction other generalizing heap l with
  | nil =>
    rw [appendLoop, List.append_nil]
    rfl
  | cons buf rest ih =>
    rw [appendLoop, if_neg Bool.false_ne_true, ih, List.append_assoc]
    rfl

/-- **Discarding from a list in memory is discarding from its values**: the loop pops and cuts the same
buffers, throws in the same cases, and moves the owners of its own buffers only. -/
theorem removePrefix_denotes (h : l.Denotes heap values) (holds : heap.Holds l.addresses) (n : Nat) :
    let cut := Handles.removePrefix heap l n
    let left := removePieces Buffer.size (fun b n h => b.advance n (Nat.le_of_lt h))
      "BufferList::remove_prefix" values n
    cut.2 = left.2 ∧ cut.1.2.Denotes cut.1.1 left.1 ∧
      Moves heap cut.1.1 l.addresses cut.1.2.addresses := by
  induction l generalizing heap values n with
  | nil =>
    cases h
    cases n with
    | zero => exact ⟨rfl, .nil, .refl heap _⟩
    | succ n => exact ⟨rfl, .nil, .refl heap _⟩
  | cons front rest ih =>
    cases h with
    | cons hfront hrest =>
      cases n with
      | zero => exact ⟨rfl, .cons hfront hrest, .refl heap _⟩
      | succ n =>
        have hsplit : addresses (front :: rest) = front.address ++ addresses rest := List.flatMap_cons
        rw [hsplit] at holds ⊢
        unfold Handles.removePrefix removePieces
        rw [hfront.size]
        split
        next hinside =>
          obtain ⟨hok, hcut, hmoves⟩ := Handle.removePrefix_ok hfront (Nat.le_of_lt hinside)
          exact ⟨hok, .cons hcut (Denotes.keep hrest (hmoves.kept holds)), hmoves.frame _⟩
        next hpast =>
          have hpopped : Moves heap (front.destroyed heap) front.address [] := front.moves_destroyed
          obtain ⟨hsame, hleft, hmoves⟩ := ih (Denotes.keep hrest (hpopped.kept holds))
            (hpopped.holds holds) (n + 1 - _)
          exact ⟨hsame, hleft, (hpopped.frame _).trans hmoves⟩

end Handles

/-! ## Programs -/

namespace Storage

/-- What a variable is, without the memory. -/
inductive Value
  | buffer (b : Buffer)
  | list (l : BufferList)

/-- The bytes a value shows. -/
def Value.contents : Value → Bytes
  | .buffer b => b.str
  | .list l => l.concatenate

/-- What a program does with its variables, as values. -/
def stepValues (values : List Value) : Op → List Value
  | .makeBuffer s => values ++ [.buffer (Buffer.ofString s)]
  | .emptyBuffer => values ++ [.buffer Buffer.empty]
  | .emptyList => values ++ [.list BufferList.empty]
  | .wrap i =>
    match values[i]? with
    | some (.buffer b) => values ++ [.list (BufferList.ofBuffer b)]
    | _ => values
  | .copy i =>
    match values[i]? with
    | some v => values ++ [v]
    | none => values
  | .consume i n =>
    match values[i]? with
    | some (.buffer b) =>
      match b.removePrefix n with
      | .ok b' => values.set i (.buffer b')
      | .error _ => values
    | _ => values
  | .append i j =>
    match values[i]?, values[j]? with
    | some (.list l), some (.list other) => values.set i (.list (l.append other))
    | _, _ => values
  | .removePrefix i n =>
    match values[i]? with
    | some (.list l) => values.set i (.list (l.removePrefix n).1)
    | _ => values
  | .leave i => values.set i (.list BufferList.empty)

/-- The addresses a variable owns. -/
def Var.addresses (x : Var) : List Nat := x.handles.addresses

/-- The variable in memory is this value. -/
inductive Var.Denotes (heap : Heap) : Var → Value → Prop
  | buffer {b : Handle} {v : Buffer} : b.Denotes heap v → Denotes heap (.buffer b) (.buffer v)
  | list {l : Handles} {v : BufferList} : l.Denotes heap v.buffers → Denotes heap (.list l) (.list v)

variable {x : Var} {y : Value}

theorem Var.Denotes.keep (h : x.Denotes heap y)
    (kept : ∀ a ∈ x.addresses, heap'.value a = heap.value a) : x.Denotes heap' y := by
  cases h with
  | buffer hb => exact .buffer (hb.keep fun a ha => kept a (by simpa [addresses, handles, Handles.addresses]))
  | list hl => exact .list (Handles.Denotes.keep hl kept)

theorem Var.Denotes.contents (h : x.Denotes heap y) : x.contents heap = y.contents := by
  cases h with
  | buffer hb => simp [Var.contents, handles, Handles.concatenate, Value.contents, hb.str]
  | list hl => exact Handles.Denotes.concatenate hl

/-- The variables in memory are these values, and the heap counts their buffers and no other owner. -/
structure Refines (w : World) (values : List Value) : Prop where
  owned : w.heap.Owned (w.vars.flatMap Var.addresses)
  length : w.vars.length = values.length
  denotes : ∀ (k : Nat) (x : Var) (y : Value),
    w.vars[k]? = some x → values[k]? = some y → x.Denotes w.heap y

theorem refines_start : Refines World.start [] :=
  ⟨Shared.owned_empty, rfl, fun _ _ _ hx => by simp [World.start] at hx⟩

variable {w : World} {values : List Value} {i : Nat}

/-- A variable has a value. -/
theorem Refines.value (h : Refines w values) (hx : w.vars[i]? = some x) :
    ∃ y, values[i]? = some y ∧ x.Denotes w.heap y := by
  have hlt : i < values.length := h.length ▸ (List.getElem?_eq_some_iff.mp hx).1
  exact ⟨values[i], List.getElem?_eq_getElem hlt, h.denotes i x _ hx (List.getElem?_eq_getElem hlt)⟩

theorem Refines.no_value (h : Refines w values) (hx : w.vars[i]? = none) : values[i]? = none := by
  rw [List.getElem?_eq_none_iff] at hx ⊢
  exact h.length ▸ hx

/-- **What a variable and its value can be**: nothing, a buffer each, or a list each. -/
theorem Refines.var_cases (h : Refines w values) (i : Nat) :
    (w.vars[i]? = none ∧ values[i]? = none) ∨
      (∃ b v, w.vars[i]? = some (.buffer b) ∧ values[i]? = some (.buffer v) ∧ b.Denotes w.heap v) ∨
      ∃ l v, w.vars[i]? = some (.list l) ∧ values[i]? = some (.list v) ∧ l.Denotes w.heap v.buffers := by
  cases hx : w.vars[i]? with
  | none => exact .inl ⟨rfl, h.no_value hx⟩
  | some x =>
    obtain ⟨y, hy, hden⟩ := h.value hx
    cases hden with
    | buffer hb => exact .inr (.inl ⟨_, _, rfl, hy, hb⟩)
    | list hl => exact .inr (.inr ⟨_, _, rfl, hy, hl⟩)

/-- The strings of a variable have owners. -/
theorem Refines.live (h : Refines w values) (hx : w.vars[i]? = some x) :
    ∀ a ∈ x.addresses, 0 < w.heap.owners a := by
  intro a ha
  exact Nat.lt_of_lt_of_le (List.count_pos_iff.mpr ha) (h.owned.holds hx a)

/-- A new variable with owners of its own is a new value. -/
theorem Refines.add (h : Refines w values) (moves : Moves w.heap heap' [] x.addresses)
    (denotes : x.Denotes heap' y) : Refines (w.add heap' x) (values ++ [y]) := by
  obtain ⟨howned, hkept⟩ := h.owned.add moves
  refine ⟨howned, by simp [World.add, h.length], ?_⟩
  intro k x' y' hx hy
  rcases Nat.lt_or_ge k w.vars.length with hlt | hge
  · rw [World.add, List.getElem?_append_left hlt] at hx
    rw [List.getElem?_append_left (h.length ▸ hlt)] at hy
    exact (h.denotes k x' y' hx hy).keep (hkept k x' hx)
  · rw [World.add, List.getElem?_append_right hge] at hx
    rw [List.getElem?_append_right (h.length ▸ hge), ← h.length] at hy
    obtain ⟨hzero, rfl⟩ := List.getElem?_eq_some_iff.mp hx
    obtain ⟨-, rfl⟩ := List.getElem?_eq_some_iff.mp hy
    simp only [List.getElem_singleton]
    exact denotes

/-- **A variable that moves its own owners changes its own value only.** -/
theorem Refines.assign (h : Refines w values) (hx : w.vars[i]? = some x) {x' : Var} {y' : Value}
    (moves : Moves w.heap heap' x.addresses x'.addresses) (denotes : x'.Denotes heap' y') :
    Refines (w.assign i heap' x') (values.set i y') := by
  obtain ⟨howned, hkept⟩ := h.owned.assign hx moves
  have hlt : i < w.vars.length := (List.getElem?_eq_some_iff.mp hx).1
  refine ⟨howned, by simp [World.assign, h.length], ?_⟩
  intro k xk yk hxk hyk
  by_cases hk : k = i
  · subst hk
    rw [World.assign, List.getElem?_set_self hlt] at hxk
    rw [List.getElem?_set_self (h.length ▸ hlt)] at hyk
    cases hxk
    cases hyk
    exact denotes
  · rw [World.assign, List.getElem?_set_ne (Ne.symm hk)] at hxk
    rw [List.getElem?_set_ne (Ne.symm hk)] at hyk
    exact (h.denotes k xk yk hxk hyk).keep (hkept k xk hk hxk)

/-- What `append` does to two lists: it grows the first by the second, or it is the same list with buffers
and there is no outcome. -/
theorem append_cases {j : Nat} {l other : Handles} (hx : w.vars[i]? = some (.list l))
    (hother : w.vars[j]? = some (.list other)) :
    w.append i j = some (w.assign i (other.copied w.heap) (.list (l ++ other))) ∧ (j ≠ i ∨ l = []) ∨
      w.append i j = none ∧ j = i ∧ l ≠ [] := by
  unfold World.append
  simp only [hx, hother]
  by_cases hself : i = j
  · subst hself
    cases hx.symm.trans hother
    cases l with
    | nil => exact .inl ⟨rfl, .inr rfl⟩
    | cons buf rest => exact .inr ⟨by simp [Handles.appendLoop], rfl, nofun⟩
  · refine .inl ⟨?_, .inl fun hc => hself hc.symm⟩
    rw [decide_eq_false hself, Handles.appendLoop_eq]
    rfl

theorem Refines.append (h : Refines w values) {i j : Nat} {w' : World} (ran : w.append i j = some w') :
    Refines w' (stepValues values (.append i j)) := by
  have hstay : ∀ v, stepValues values (.append i j) = v → w.append i j = some w → v = values →
      Refines w' v := by
    rintro v - hsame rfl
    cases hsame.symm.trans ran
    exact h
  obtain ⟨hx, hy⟩ | ⟨b, v, hx, hy, -⟩ | ⟨l, v, hx, hy, hl⟩ := h.var_cases i
  · exact hstay _ rfl (by simp [World.append, hx]) (by simp [stepValues, hy])
  · exact hstay _ rfl (by simp [World.append, hx]) (by simp [stepValues, hy])
  obtain ⟨hother, hz⟩ | ⟨b, u, hother, hz, -⟩ | ⟨m, u, hother, hz, hm⟩ := h.var_cases j
  · exact hstay _ rfl (by simp [World.append, hx, hother]) (by simp [stepValues, hy, hz])
  · exact hstay _ rfl (by simp [World.append, hx, hother]) (by simp [stepValues, hy, hz])
  obtain ⟨hgrown, -⟩ | ⟨hnone, -⟩ := append_cases hx hother
  · cases hgrown.symm.trans ran
    simp only [stepValues, hy, hz]
    have hmoves := (m.moves_copied (h.live hother)).frame l.addresses
    refine h.assign hx (hmoves.perm ?_) (.list ?_)
    · show (m.addresses ++ l.addresses).Perm (List.flatMap Handle.address (l ++ m))
      rw [List.flatMap_append]
      exact List.perm_append_comm
    · exact List.rel_append (Handles.Denotes.keep hl fun a _ => m.value_copied _ a)
        (Handles.Denotes.keep hm fun a _ => m.value_copied _ a)
  · cases hnone.symm.trans ran

theorem Refines.removePrefix (h : Refines w values) (i n : Nat) :
    Refines (w.removePrefix i n).1 (stepValues values (.removePrefix i n)) := by
  unfold World.removePrefix stepValues
  obtain ⟨hx, hy⟩ | ⟨b, v, hx, hy, -⟩ | ⟨l, v, hx, hy, hl⟩ := h.var_cases i
  · simpa [hx, hy] using h
  · simpa [hx, hy] using h
  · simp only [hx, hy]
    obtain ⟨-, hleft, hmoves⟩ := Handles.removePrefix_denotes hl (h.owned.holds hx) n
    exact h.assign hx hmoves (.list hleft)

theorem Refines.consume (h : Refines w values) (i n : Nat) :
    Refines (w.consume i n).1 (stepValues values (.consume i n)) := by
  unfold World.consume stepValues
  obtain ⟨hx, hy⟩ | ⟨b, v, hx, hy, hb⟩ | ⟨l, v, hx, hy, -⟩ := h.var_cases i
  · simpa [hx, hy] using h
  · simp only [hx, hy, Buffer.removePrefix]
    by_cases enough : n ≤ v.size
    · simp only [dif_pos enough]
      obtain ⟨-, hcut, hmoves⟩ := Handle.removePrefix_ok hb enough
      refine h.assign hx ?_ (.buffer hcut)
      simpa [Var.addresses, Var.handles, Handles.addresses] using hmoves
    · -- a call that throws leaves the buffer as it was
      simp only [dif_neg enough]
      rw [Handle.removePrefix_error hb (Nat.lt_of_not_le enough)]
      have hsame := h.assign hx (.refl w.heap _) (.buffer hb)
      obtain ⟨hlt, hself⟩ := List.getElem?_eq_some_iff.mp hy
      rwa [← hself, List.set_getElem_self hlt] at hsame
  · simpa [hx, hy] using h

theorem Refines.wrap (h : Refines w values) {i : Nat} {w' : World} (ran : w.step (.wrap i) = some w') :
    Refines w' (stepValues values (.wrap i)) := by
  simp only [World.step] at ran
  simp only [stepValues]
  obtain ⟨hx, hy⟩ | ⟨b, v, hx, hy, hb⟩ | ⟨l, v, hx, hy, -⟩ := h.var_cases i
  · simp only [hx, Option.some.injEq] at ran
    simpa [hy, ← ran] using h
  · simp only [hx, Option.some.injEq] at ran
    simp only [hy, ← ran]
    have hlive : ∀ a ∈ b.address, 0 < w.heap.owners a := by
      simpa [Var.addresses, Var.handles, Handles.addresses] using h.live hx
    refine h.add (x := .list [b]) ?_ (.list (.cons (hb.keep fun a _ => b.value_copied a) .nil))
    simpa [Var.addresses, Var.handles, Handles.addresses] using b.moves_copied hlive
  · simp only [hx, Option.some.injEq] at ran
    simpa [hy, ← ran] using h

theorem Refines.copy (h : Refines w values) {i : Nat} {w' : World} (ran : w.step (.copy i) = some w') :
    Refines w' (stepValues values (.copy i)) := by
  simp only [World.step] at ran
  simp only [stepValues]
  cases hx : w.vars[i]? with
  | none =>
    simp only [hx, Option.some.injEq] at ran
    simpa [h.no_value hx, ← ran] using h
  | some x =>
    obtain ⟨y, hy, hden⟩ := h.value hx
    simp only [hx, Option.some.injEq] at ran
    simp only [hy, ← ran]
    exact h.add (x.handles.moves_copied (h.live hx)) (hden.keep fun a _ => x.handles.value_copied _ a)

theorem Refines.leave (h : Refines w values) {i : Nat} {w' : World} (ran : w.step (.leave i) = some w') :
    Refines w' (stepValues values (.leave i)) := by
  simp only [World.step] at ran
  simp only [stepValues]
  cases hx : w.vars[i]? with
  | none =>
    have hbeyond := List.getElem?_eq_none_iff.mp (h.no_value hx)
    simp only [hx, Option.some.injEq] at ran
    simpa [List.set_eq_of_length_le hbeyond, ← ran] using h
  | some x =>
    simp only [hx, Option.some.injEq] at ran
    rw [← ran]
    exact h.assign hx (x.handles.moves_destroyed w.heap) (.list .nil)

/-- **Every operation of a program that has an outcome is the operation on its values.** -/
theorem Refines.step (h : Refines w values) {op : Op} {w' : World} (ran : w.step op = some w') :
    Refines w' (stepValues values op) := by
  cases op with
  | makeBuffer s =>
    cases ran
    refine h.add (x := .buffer ⟨some w.heap.next, 0⟩) (w.heap.moves_make s) (.buffer ⟨?_, rfl⟩)
    simp [Buffer.ofString, w.heap.value_make s]
  | emptyBuffer =>
    cases ran
    exact h.add (.refl w.heap []) (.buffer ⟨rfl, rfl⟩)
  | emptyList =>
    cases ran
    exact h.add (.refl w.heap []) (.list .nil)
  | wrap i => exact h.wrap ran
  | copy i => exact h.copy ran
  | consume i n =>
    cases ran
    exact h.consume i n
  | append i j => exact h.append ran
  | removePrefix i n =>
    cases ran
    exact h.removePrefix i n
  | leave i => exact h.leave ran

/-- What a program comes to, if every operation of it has an outcome. -/
def run (ops : List Op) : Option World := ops.foldlM World.step World.start

/-- **Whatever a program does, its variables in memory are the values it computes.** -/
theorem refines_run {ops : List Op} (ran : run ops = some w) : Refines w (ops.foldl stepValues []) := by
  suffices h : ∀ w₀ values, Refines w₀ values → ops.foldlM World.step w₀ = some w →
      Refines w (ops.foldl stepValues values) from
    h World.start [] refines_start ran
  clear ran
  induction ops with
  | nil =>
    intro w₀ values h hran
    cases hran
    exact h
  | cons op ops ih =>
    intro w₀ values h hran
    rw [List.foldlM_cons] at hran
    obtain ⟨w₁, hstep, hrest⟩ := Option.bind_eq_some_iff.mp hran
    exact ih w₁ _ (h.step hstep) hrest

/-- What a variable shows is what its value shows. -/
theorem Refines.contents (h : Refines w values) (k : Nat) :
    w.contents k = (values[k]?).elim [] Value.contents := by
  unfold World.contents
  cases hx : w.vars[k]? with
  | none => simp [h.no_value hx]
  | some x =>
    obtain ⟨y, hy, hden⟩ := h.value hx
    simp only [hy, Option.elim_some]
    exact hden.contents

/-- A list variable has a list for its value. -/
theorem Refines.list_value (h : Refines w values) {l : Handles} (hx : w.vars[i]? = some (.list l)) :
    ∃ v : BufferList, values[i]? = some (.list v) ∧ l.Denotes w.heap v.buffers := by
  obtain ⟨y, hy, hden⟩ := h.value hx
  cases hden with
  | list hl => exact ⟨_, hy, hl⟩

/-- Appending to a list concatenates, if it has an outcome, and no other variable sees it. -/
theorem Refines.contents_append (h : Refines w values) {j : Nat} {l other : Handles} {w' : World}
    (hx : w.vars[i]? = some (.list l)) (hother : w.vars[j]? = some (.list other))
    (ran : w.append i j = some w') :
    w'.contents i = w.contents i ++ w.contents j ∧ ∀ k ≠ i, w'.contents k = w.contents k := by
  obtain ⟨v, hv, -⟩ := h.list_value hx
  obtain ⟨u, hu, -⟩ := h.list_value hother
  have hlt : i < values.length := (List.getElem?_eq_some_iff.mp hv).1
  have happend : stepValues values (.append i j) = values.set i (.list (v.append u)) := by
    simp [stepValues, hv, hu]
  have hafter := (h.append ran).contents
  rw [happend] at hafter
  constructor
  · simp [hafter, h.contents, List.getElem?_set_self hlt, hv, hu, Value.contents,
      BufferList.concatenate_append]
  · intro k hk
    rw [hafter, h.contents, List.getElem?_set_ne hk.symm]

/-- Discarding from a list drops from the front of its bytes, or throws, and no other variable sees
it. -/
theorem Refines.contents_removePrefix (h : Refines w values) {l : Handles}
    (hx : w.vars[i]? = some (.list l)) (n : Nat) :
    ((w.contents i).length < n ∧
        (w.removePrefix i n).2 = .error (.outOfRange "BufferList::remove_prefix") ∨
      n ≤ (w.contents i).length ∧ (w.removePrefix i n).2 = .ok () ∧
        (w.removePrefix i n).1.contents i = (w.contents i).drop n) ∧
      ∀ k ≠ i, (w.removePrefix i n).1.contents k = w.contents k := by
  obtain ⟨v, hv, hden⟩ := h.list_value hx
  have hlt : i < values.length := (List.getElem?_eq_some_iff.mp hv).1
  have hcut : stepValues values (.removePrefix i n) = values.set i (.list (v.removePrefix n).1) := by
    simp [stepValues, hv]
  have hafter := (h.removePrefix i n).contents
  rw [hcut] at hafter
  have hcontents : w.contents i = v.concatenate := by
    rw [h.contents, hv]
    rfl
  have hresult : (w.removePrefix i n).2 = (v.removePrefix n).2 := by
    unfold World.removePrefix
    simp only [hx]
    exact (Handles.removePrefix_denotes hden (h.owned.holds hx) n).1
  constructor
  · have hshown : (w.removePrefix i n).1.contents i = (v.removePrefix n).1.concatenate := by
      rw [hafter, List.getElem?_set_self hlt]
      rfl
    rw [hcontents, hresult, hshown]
    exact v.removePrefix_flat n
  · intro k hk
    rw [hafter, h.contents, List.getElem?_set_ne hk.symm]

end Storage

/-! ## Views -/

namespace View

/-- The piece lies in a string that is stored, or is empty. -/
def Stored (heap : Heap) (v : View) : Prop :=
  match v.data.bind heap.value with
  | none => v.size = 0
  | some s => v.offset + v.size ≤ s.length

variable {v : View}

theorem Stored.size_eq (h : v.Stored heap) : v.size = (v.str heap).length := by
  unfold Stored at h
  unfold View.str
  cases hdata : v.data.bind heap.value with
  | none => simpa [hdata] using h
  | some s =>
    simp only [hdata] at h
    simp only [List.length_take, List.length_drop]
    omega

theorem Stored.removePrefix (h : v.Stored heap) {n : Nat} (inside : n < v.size) :
    (v.removePrefix n).Stored heap ∧ (v.removePrefix n).str heap = (v.str heap).drop n := by
  unfold Stored at h ⊢
  unfold View.str View.removePrefix
  cases hdata : v.data.bind heap.value with
  | none =>
    simp only [hdata] at h
    omega
  | some s =>
    simp only [hdata] at h ⊢
    refine ⟨by omega, ?_⟩
    rw [List.drop_take, List.drop_drop]

/-- The view of a buffer shows its bytes. -/
theorem stored_ofHandle {b : Handle} {value : Buffer} (h : b.Denotes heap value) :
    (ofHandle heap b).Stored heap ∧ (ofHandle heap b).str heap = b.str heap := by
  have hread := h.bind_value
  unfold Stored View.str ofHandle Handle.size Handle.str
  simp only [hread, h.offset]
  cases hstorage : value.storage with
  | none => simp
  | some s =>
    have hinside := value.inside s hstorage
    simp only [List.length_drop]
    refine ⟨by omega, ?_⟩
    rw [List.take_of_length_le (by simp)]

end View

namespace BufferViewList

/-- All pieces lie in strings that are stored. -/
def Stored (heap : Heap) (l : BufferViewList) : Prop := ∀ v ∈ l.views, v.Stored heap

variable {l : BufferViewList}

theorem Stored.size_eq (h : l.Stored heap) : l.size = (l.concatenate heap).length := by
  rw [BufferViewList.size, BufferViewList.concatenate, List.length_flatMap]
  congr 1
  apply List.map_congr_left
  intro v hv
  exact (h v hv).size_eq

/-- `remove_prefix` drops from the front of the bytes viewed, or throws when there are fewer. -/
theorem Stored.removePrefix (h : l.Stored heap) (n : Nat) :
    (l.removePrefix n).1.Stored heap ∧
      ((l.concatenate heap).length < n ∧
          (l.removePrefix n).2 = .error (.outOfRange "BufferListView::remove_prefix") ∨
        n ≤ (l.concatenate heap).length ∧ (l.removePrefix n).2 = .ok () ∧
          (l.removePrefix n).1.concatenate heap = (l.concatenate heap).drop n) :=
  removePieces_flat (View.Stored heap) (fun _ hv => hv.size_eq)
    (fun _ _ inside hv => hv.removePrefix inside) l.views h n

/-- The views of a list show its bytes. -/
theorem stored_ofBufferList {handles : Handles} {values : List Buffer}
    (h : handles.Denotes heap values) :
    (ofBufferList heap handles).Stored heap ∧
      (ofBufferList heap handles).concatenate heap = Handles.concatenate heap handles := by
  unfold Stored ofBufferList concatenate Handles.concatenate
  induction h with
  | nil => simp
  | cons hfront _ ih =>
    obtain ⟨hstored, hstr⟩ := View.stored_ofHandle hfront
    simp only [List.map_cons, List.mem_cons, List.flatMap_cons, hstr, ih.2]
    refine ⟨?_, trivial⟩
    rintro v (rfl | hv)
    · exact hstored
    · exact ih.1 v hv

end BufferViewList

namespace Storage

/-- **Discontiguous strings behave like flat ones**, a list appended to itself apart. In whatever a program
comes to, for every list among its variables: the size is the length of its bytes; appending a list
concatenates, and has an outcome unless it is the same list and has buffers; discarding `n` bytes throws
exactly when there are fewer, and drops them otherwise; and neither is seen by any other variable, whichever
strings they share. The views of the list show its bytes, and every list of views into strings that are
stored has the same size and the same `remove_prefix`. -/
theorem buffers_flat {ops : List Op} {w : World} (ran : run ops = some w) {i : Nat} {l : Handles}
    (var : w.vars[i]? = some (.list l)) :
    Handles.size w.heap l = (w.contents i).length ∧
    (∀ j other, w.vars[j]? = some (.list other) →
      (j ≠ i ∨ l = [] ↔ ∃ w', w.append i j = some w') ∧
      ∀ w', w.append i j = some w' →
        w'.contents i = w.contents i ++ w.contents j ∧ ∀ k ≠ i, w'.contents k = w.contents k) ∧
    (∀ n,
      (Handles.size w.heap l < n ∧
          (w.removePrefix i n).2 = .error (.outOfRange "BufferList::remove_prefix") ∨
        n ≤ Handles.size w.heap l ∧ (w.removePrefix i n).2 = .ok () ∧
          (w.removePrefix i n).1.contents i = (w.contents i).drop n) ∧
        ∀ k ≠ i, (w.removePrefix i n).1.contents k = w.contents k) ∧
    ((BufferViewList.ofBufferList w.heap l).Stored w.heap ∧
      (BufferViewList.ofBufferList w.heap l).concatenate w.heap = w.contents i) ∧
    ∀ views : BufferViewList, views.Stored w.heap →
      views.size = (views.concatenate w.heap).length ∧
      ∀ n, (views.removePrefix n).1.Stored w.heap ∧
        (views.size < n ∧
            (views.removePrefix n).2 = .error (.outOfRange "BufferListView::remove_prefix") ∨
          n ≤ views.size ∧ (views.removePrefix n).2 = .ok () ∧
            (views.removePrefix n).1.concatenate w.heap = (views.concatenate w.heap).drop n) := by
  have href := refines_run ran
  obtain ⟨v, -, hden⟩ := href.list_value var
  have hcontents : w.contents i = Handles.concatenate w.heap l := by
    unfold World.contents
    simp only [var]
    rfl
  have hsize : Handles.size w.heap l = (w.contents i).length := by
    rw [hcontents, Handles.length_concatenate]
  obtain ⟨hstored, hshown⟩ := BufferViewList.stored_ofBufferList hden
  refine ⟨hsize, ?_, ?_, ⟨hstored, hshown.trans hcontents.symm⟩, ?_⟩
  · intro j other hother
    refine ⟨?_, fun w' happend => href.contents_append var hother happend⟩
    obtain ⟨hgrown, hapart⟩ | ⟨hnone, rfl, hsome⟩ := append_cases var hother
    · exact ⟨fun _ => ⟨_, hgrown⟩, fun _ => hapart⟩
    · refine ⟨fun hapart => absurd hapart (by simp [hsome]), fun ⟨w', hw'⟩ => ?_⟩
      cases hnone.symm.trans hw'
  · intro n
    rw [hsize]
    exact href.contents_removePrefix var n
  · intro views hviews
    refine ⟨hviews.size_eq, fun n => ?_⟩
    rw [hviews.size_eq]
    exact hviews.removePrefix n

/-- Three lists over one string of three bytes, of which one was consumed before, and an empty one:
discarding three bytes from the list of two pieces and an empty one between them leaves one byte, and the
copy of a piece keeps its two. -/
theorem buffers_flat_shared :
    let ops := [.makeBuffer [1, 2, 3], .consume 0 1, .makeBuffer [], .wrap 0, .wrap 1, .wrap 0,
      .append 2 3, .append 2 4]
    let w := (run ops).getD World.start
    run ops = some w ∧ w.contents 2 = [2, 3, 2, 3] ∧ (w.removePrefix 2 3).2 = .ok () ∧
      (w.removePrefix 2 3).1.contents 2 = [3] ∧ (w.removePrefix 2 3).1.contents 4 = [2, 3] := by
  intro ops w
  have hran : run ops = some w := rfl
  have hvar : w.vars[2]? = some (.list [⟨some 0, 1⟩, ⟨some 1, 0⟩, ⟨some 0, 1⟩]) := by decide
  obtain ⟨hsize, -, hremove, -⟩ := buffers_flat hran hvar
  have hcontents : w.contents 2 = [2, 3, 2, 3] := by decide
  obtain ⟨hflat, hothers⟩ := hremove 3
  rw [hsize, hcontents] at hflat
  obtain ⟨hshort, -⟩ | ⟨-, hok, hdrop⟩ := hflat
  · exact absurd hshort (by decide)
  · exact ⟨hran, hcontents, hok, hdrop, (hothers 4 (by decide)).trans (by decide)⟩

/-- **A list of one buffer of two bytes, appended to itself**: there is no outcome, where its bytes twice are
due. -/
theorem append_self_undefined :
    let ops := [.makeBuffer [1, 2], .wrap 0]
    let w := (run ops).getD World.start
    run ops = some w ∧ w.vars[1]? = some (.list [⟨some 0, 0⟩]) ∧ w.contents 1 = [1, 2] ∧
      w.append 1 1 = none ∧ run (ops ++ [.append 1 1]) = none :=
  ⟨rfl, by decide, by decide, rfl, rfl⟩

end Storage

end Sponge
