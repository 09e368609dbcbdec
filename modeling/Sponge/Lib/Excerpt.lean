import Mathlib.Data.List.Basic
import Mathlib.Tactic.Common

/-!
# Excerpts of a list, and painting one from pieces

`Excerpt S i d` says that `d` is what the list `S` holds from position `i` on: a prefix of
`S.drop i`. Excerpts are closed under cutting at either end, adjacent excerpts join, and an excerpt
of a list stays one when the list grows at its end.

`paint` overwrites a base list with pieces, each at its own position. `paint_excerpt` is the law:
when every piece is an excerpt of `S` and the pieces cover the base, the painted list is an excerpt
of `S` whatever the base held before. The pieces may overlap and come in any order.
-/

namespace List

variable {α : Type*} {S d e : List α} {i n : Nat}

/-- The list `d` is what `S` holds from position `i` on. -/
def Excerpt (S : List α) (i : Nat) (d : List α) : Prop := d <+: S.drop i

instance [DecidableEq α] (S : List α) (i : Nat) (d : List α) : Decidable (Excerpt S i d) :=
  inferInstanceAs (Decidable (d <+: S.drop i))

/-- An excerpt, read position by position. -/
theorem excerpt_iff_getElem? :
    Excerpt S i d ↔ ∀ j, j < d.length → d[j]? = S[i + j]? := by
  rw [Excerpt, List.prefix_iff_getElem?]
  constructor
  · intro h j hj
    rw [List.getElem?_eq_getElem hj, ← h j hj, List.getElem?_drop]
  · intro h j hj
    rw [List.getElem?_drop, ← h j hj, List.getElem?_eq_getElem hj]

/-- The empty list is an excerpt at every position. -/
@[simp] theorem excerpt_nil (S : List α) (i : Nat) : Excerpt S i [] :=
  List.nil_prefix

/-- A nonempty excerpt ends inside the list. -/
theorem Excerpt.length_le (h : Excerpt S i d) (hd : d ≠ []) : i + d.length ≤ S.length := by
  have hlen := List.IsPrefix.length_le h
  have hpos := List.length_pos_iff.mpr hd
  rw [List.length_drop] at hlen
  omega

/-- The excerpt of a given length at a position inside the list is the slice there. -/
theorem Excerpt.eq_take (h : Excerpt S i d) : d = (S.drop i).take d.length :=
  List.prefix_iff_eq_take.mp h

/-- An excerpt continues the front of the list up to its own position. -/
theorem Excerpt.take_append (h : Excerpt S i d) : S.take i ++ d = S.take (i + d.length) := by
  rw [List.take_add, ← h.eq_take]

/-- What is appended is an excerpt at the old end. -/
theorem excerpt_append (S d : List α) : Excerpt (S ++ d) S.length d := by
  simp only [Excerpt, List.drop_left, List.prefix_refl]

/-- An excerpt that ends within a prefix is an excerpt of the prefix. -/
theorem Excerpt.of_take (h : Excerpt S i d) {n : Nat} (hle : i + d.length ≤ n) :
    Excerpt (S.take n) i d := by
  rw [Excerpt, List.drop_take]
  exact List.prefix_take_iff.mpr ⟨h, by omega⟩

/-- Cutting an excerpt at its end leaves an excerpt. -/
theorem Excerpt.take (h : Excerpt S i d) (n : Nat) : Excerpt S i (d.take n) :=
  (List.take_prefix n d).trans h

/-- Cutting an excerpt at its front moves its position. -/
theorem Excerpt.drop (h : Excerpt S i d) (n : Nat) : Excerpt S (i + n) (d.drop n) := by
  rw [excerpt_iff_getElem?] at h ⊢
  intro j hj
  rw [List.length_drop] at hj
  rw [List.getElem?_drop, h (n + j) (by omega), Nat.add_assoc]

/-- Adjacent excerpts join. -/
theorem Excerpt.append (h : Excerpt S i d) (h' : Excerpt S (i + d.length) e) :
    Excerpt S i (d ++ e) := by
  rw [excerpt_iff_getElem?] at *
  intro j hj
  rw [List.length_append] at hj
  by_cases hd : j < d.length
  · rw [List.getElem?_append_left hd, h j hd]
  · rw [List.getElem?_append_right (by omega), h' (j - d.length) (by omega)]
    congr 1
    omega

/-- An excerpt stays one when the list grows at its end. -/
theorem Excerpt.extend (h : Excerpt S i d) (T : List α) : Excerpt (S ++ T) i d := by
  rw [excerpt_iff_getElem?] at *
  intro j hj
  have hsome : S[i + j]? ≠ none := by
    rw [← h j hj, List.getElem?_eq_getElem hj]
    nofun
  have hlt : i + j < S.length := by
    by_contra hge
    exact hsome (List.getElem?_eq_none (by omega))
  rw [List.getElem?_append_left hlt]
  exact h j hj

/-! ## Writing a piece over a list -/

/-- Overwrite `s` from position `pos` on with the characters of a list, one after the other.
A position past the end of `s` is not written. -/
def writeAt (s : List α) (pos : Nat) : List α → List α
  | [] => s
  | c :: cs => writeAt (s.set pos c) (pos + 1) cs

@[simp] theorem length_writeAt (s : List α) (pos : Nat) (cs : List α) :
    (writeAt s pos cs).length = s.length := by
  induction cs generalizing s pos with
  | nil => rfl
  | cons c cs ih => rw [writeAt, ih, List.length_set]

/-- What a position holds after the overwrite: the piece where the piece lies, the old list
elsewhere. -/
theorem getElem?_writeAt (s : List α) (pos : Nat) (cs : List α) {j : Nat} (hj : j < s.length) :
    (writeAt s pos cs)[j]? =
      if pos ≤ j ∧ j < pos + cs.length then cs[j - pos]? else s[j]? := by
  induction cs generalizing s pos with
  | nil =>
    rw [writeAt, if_neg]
    rw [List.length_nil]
    omega
  | cons c cs ih =>
    rw [writeAt, ih _ _ (by rwa [List.length_set])]
    simp only [List.length_cons]
    by_cases hpos : pos = j
    · subst hpos
      rw [if_neg (by omega), if_pos (by omega), Nat.sub_self, List.getElem?_set_self hj]
      rfl
    · rw [List.getElem?_set_ne hpos]
      by_cases hin : pos + 1 ≤ j ∧ j < pos + 1 + cs.length
      · rw [if_pos hin, if_pos (by omega), show j - pos = j - (pos + 1) + 1 by omega,
          List.getElem?_cons_succ]
      · rw [if_neg hin, if_neg (by omega)]

/-- Paint pieces over a base list that stands at position `left`, in the order given. -/
def paint (left : Nat) (base : List α) (pieces : List (Nat × List α)) : List α :=
  pieces.foldl (fun s piece => writeAt s (piece.1 - left) piece.2) base

@[simp] theorem length_paint (left : Nat) (base : List α) (pieces : List (Nat × List α)) :
    (paint left base pieces).length = base.length := by
  induction pieces generalizing base with
  | nil => rfl
  | cons piece pieces ih => exact (ih _).trans (length_writeAt _ _ _)

/-- Empty pieces paint nothing. -/
theorem paint_filter (left : Nat) (base : List α) (pieces : List (Nat × List α)) :
    paint left base (pieces.filter fun piece => !piece.2.isEmpty) = paint left base pieces := by
  induction pieces generalizing base with
  | nil => rfl
  | cons piece pieces ih =>
    obtain ⟨pos, cs⟩ := piece
    cases cs with
    | nil => exact ih base
    | cons c cs => exact ih _

/-- A piece as long as the base covers it. -/
theorem paint_single (base : List α) (piece : Nat × List α) (h : base.length = piece.2.length) :
    paint piece.1 base [piece] = piece.2 := by
  show writeAt base (piece.1 - piece.1) piece.2 = piece.2
  apply List.ext_getElem?
  intro j
  by_cases hj : j < base.length
  · rw [getElem?_writeAt _ _ _ hj, Nat.sub_self, Nat.sub_zero, if_pos (by omega)]
  · rw [List.getElem?_eq_none (by rw [length_writeAt]; omega), List.getElem?_eq_none (by omega)]

/-- A position that the base has right, or that some piece covers, is right once painted. -/
theorem getElem?_paint {left : Nat} {pieces : List (Nat × List α)}
    (right : ∀ piece ∈ pieces, left ≤ piece.1 ∧ Excerpt S piece.1 piece.2)
    (base : List α) {j : Nat} (hj : j < base.length)
    (covered : base[j]? = S[left + j]? ∨
      ∃ piece ∈ pieces, piece.1 ≤ left + j ∧ left + j < piece.1 + piece.2.length) :
    (paint left base pieces)[j]? = S[left + j]? := by
  induction pieces generalizing base with
  | nil =>
    rcases covered with h | ⟨_, hmem, _⟩
    · exact h
    · cases hmem
  | cons piece pieces ih =>
    have hpiece := right piece List.mem_cons_self
    have hrest := fun p hp => right p (List.mem_cons_of_mem _ hp)
    refine ih hrest _ (by rwa [length_writeAt]) ?_
    rw [getElem?_writeAt _ _ _ hj]
    by_cases hin : piece.1 - left ≤ j ∧ j < piece.1 - left + piece.2.length
    · left
      rw [if_pos hin, excerpt_iff_getElem?.mp hpiece.2 _ (by omega)]
      congr 1
      omega
    · rw [if_neg hin]
      rcases covered with h | ⟨p, hmem, hp⟩
      · exact .inl h
      · rcases List.mem_cons.mp hmem with rfl | hmem
        · omega
        · exact .inr ⟨p, hmem, hp⟩

/-- **Pieces of `S` that cover the base paint an excerpt of `S`**, whatever the base held. -/
theorem paint_excerpt {left : Nat} {pieces : List (Nat × List α)} {base : List α}
    (right : ∀ piece ∈ pieces, left ≤ piece.1 ∧ Excerpt S piece.1 piece.2)
    (covered : ∀ k, left ≤ k → k < left + base.length →
      ∃ piece ∈ pieces, piece.1 ≤ k ∧ k < piece.1 + piece.2.length) :
    Excerpt S left (paint left base pieces) := by
  rw [excerpt_iff_getElem?]
  intro j hj
  rw [length_paint] at hj
  exact getElem?_paint right base hj (.inr (covered (left + j) (by omega) (by omega)))

end List
