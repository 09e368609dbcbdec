import Sponge.Stream.Reassembler

/-!
# Laws.Stream.Merge — what merging a substring into the map does

`mergeAt` paints one string over the overlapping neighbours of a freshly stored substring and
erases them. Two laws come out of it.

`mergedStr_held` needs nothing of the map but that every entry is an excerpt of the stream: the
painted string is then an excerpt too. The range is contiguous by construction, so no filler byte
survives, even when stale or empty entries sit inside others.

`mergeAt_covers` and `mergeAt_tiled` are for a tiled map, whose entries are nonempty and do not
overlap: storing a nonempty substring and merging it keeps the tiling, and covers exactly the old
indices and the new ones.
-/

namespace Sponge

open Word64 (add sub add_eq sub_eq)

namespace StreamReassembler

/-- What the map may hold: an excerpt of the stream whose end is a 64-bit index. -/
structure Held (S : Bytes) (e : Entry) : Prop where
  excerpt : List.Excerpt S e.1 e.2
  inRange : e.1 + e.2.length < 2 ^ 64

/-- The index `i` lies inside the entry. -/
def Entry.Has (e : Entry) (i : Nat) : Prop := e.1 ≤ i ∧ i < e.1 + e.2.length

/-- The index `i` lies inside some entry of the map. -/
def Covers (buf : SortedMap Nat Bytes) (i : Nat) : Prop := ∃ e ∈ buf.entries, Entry.Has e i

/-! ## The right-hand loop -/

/-- The loop only runs through entries that start below the bound. -/
theorem mem_mergeRight {bound : Nat} {l : List Entry} {rb : Nat} {e : Entry}
    (h : e ∈ (mergeRight bound l rb).2) : e ∈ l ∧ e.1 < bound := by
  induction l generalizing rb with
  | nil => cases h
  | cons a l ih =>
    rw [mergeRight] at h
    split at h
    next hlt =>
      rcases List.mem_cons.mp h with rfl | h
      · exact ⟨List.mem_cons_self, hlt⟩
      · exact ⟨List.mem_cons_of_mem _ (ih h).1, (ih h).2⟩
    next => cases h

/-- On a sorted list it runs through all of them. -/
theorem mem_mergeRight_of_lt {bound : Nat} {l : List Entry} {rb : Nat} {e : Entry}
    (sorted : l.Pairwise (fun a b => a.1 < b.1)) (he : e ∈ l) (hlt : e.1 < bound) :
    e ∈ (mergeRight bound l rb).2 := by
  induction l generalizing rb with
  | nil => cases he
  | cons a l ih =>
    obtain ⟨ha, hl⟩ := List.pairwise_cons.mp sorted
    have hbound : a.1 < bound := by
      rcases List.mem_cons.mp he with rfl | he
      · exact hlt
      · exact Nat.lt_trans (ha e he) hlt
    rw [mergeRight, if_pos hbound]
    rcases List.mem_cons.mp he with rfl | he
    · exact List.mem_cons_self
    · exact List.mem_cons_of_mem _ (ih hl he)

theorem mergeRight_sublist (bound : Nat) (l : List Entry) (rb : Nat) :
    (mergeRight bound l rb).2.Sublist l := by
  induction l generalizing rb with
  | nil => exact List.Sublist.refl _
  | cons a l ih =>
    rw [mergeRight]
    split
    · exact (ih _).cons_cons a
    · exact List.nil_sublist _

/-- The right bound is the one given or the end of an entry run through, whichever is greatest. -/
theorem mergeRight_fst (bound : Nat) (l : List Entry) (rb : Nat) :
    rb ≤ (mergeRight bound l rb).1 ∧
      (∀ e ∈ (mergeRight bound l rb).2, Entry.stop e ≤ (mergeRight bound l rb).1) ∧
      ((mergeRight bound l rb).1 = rb ∨
        ∃ e ∈ (mergeRight bound l rb).2, (mergeRight bound l rb).1 = Entry.stop e) := by
  induction l generalizing rb with
  | nil => exact ⟨Nat.le_refl _, (fun _ h => by cases h), .inl rfl⟩
  | cons a l ih =>
    rw [mergeRight]
    split
    next =>
      obtain ⟨hrb, hall, hmax⟩ := ih (max rb (Entry.stop a))
      refine ⟨Nat.le_trans (Nat.le_max_left _ _) hrb, ?_, ?_⟩
      · intro e he
        rcases List.mem_cons.mp he with rfl | he
        · exact Nat.le_trans (Nat.le_max_right _ _) hrb
        · exact hall e he
      · rcases hmax with hmax | ⟨e, he, hmax⟩
        · rcases Nat.le_total (Entry.stop a) rb with hle | hle
          · exact .inl (hmax.trans (Nat.max_eq_left hle))
          · exact .inr ⟨a, List.mem_cons_self, hmax.trans (Nat.max_eq_right hle)⟩
        · exact .inr ⟨e, List.mem_cons_of_mem _ he, hmax⟩
    next => exact ⟨Nat.le_refl _, (fun _ h => by cases h), .inl rfl⟩

/-! ## The left neighbour -/

/-- The left neighbour is the entry just before the index, and it reaches past the index. -/
theorem leftNeighbour_eq_some {buf : SortedMap Nat Bytes} {validIdx : Nat} {l : Entry}
    (h : leftNeighbour buf validIdx = some l) :
    buf.lower? validIdx = some l ∧ validIdx < Entry.stop l := by
  unfold leftNeighbour at h
  cases hl : buf.lower? validIdx with
  | none => rw [hl] at h; cases h
  | some e =>
    rw [hl] at h
    dsimp only at h
    split at h
    · cases h
    next hlt => cases h; exact ⟨rfl, Nat.lt_of_not_le hlt⟩

/-- Without a left neighbour, every entry before the index ends at it or before. -/
theorem leftNeighbour_eq_none {buf : SortedMap Nat Bytes} {validIdx : Nat}
    (h : leftNeighbour buf validIdx = none) :
    buf.lower? validIdx = none ∨
      ∃ l, buf.lower? validIdx = some l ∧ Entry.stop l ≤ validIdx := by
  unfold leftNeighbour at h
  cases hl : buf.lower? validIdx with
  | none => exact .inl rfl
  | some e =>
    rw [hl] at h
    dsimp only at h
    split at h
    next hle => exact .inr ⟨e, rfl, hle⟩
    · cases h

/-! ## The merged string -/

section Merged

variable {S : Bytes} {buf : SortedMap Nat Bytes} {validIdx : Nat} {validStr : Bytes}

/-- Every entry of the range is an entry of the map that starts at `iterL` or later. -/
theorem mem_mergeRange {rb : Nat} {e : Entry}
    (h : e ∈ (mergeRange buf validIdx validStr rb).2) :
    e ∈ buf.entries ∧ (leftEnd buf validIdx validStr).1 ≤ e.1 := by
  have hright : ∀ a, a ∈ buf.from validIdx → a ∈ buf.entries ∧ validIdx ≤ a.1 := by
    intro a ha
    obtain ⟨hmem, hge⟩ := SortedMap.mem_from.mp ha
    exact ⟨hmem, Nat.le_of_not_lt hge⟩
  unfold mergeRange leftEnd at *
  dsimp only at h
  cases hl : leftNeighbour buf validIdx with
  | none =>
    rw [hl, Option.toList_none, List.nil_append] at h
    exact hright e (mem_mergeRight h).1
  | some l =>
    rw [hl, Option.toList_some, List.singleton_append, List.mem_cons] at h
    obtain ⟨hlow, -⟩ := leftNeighbour_eq_some hl
    obtain ⟨hmem, hlt, -⟩ := SortedMap.lower?_eq_some hlow
    rcases h with rfl | h
    · exact ⟨hmem, Nat.le_refl _⟩
    · obtain ⟨he, hge⟩ := hright e (mem_mergeRight h).1
      exact ⟨he, Nat.le_trans (Nat.le_of_lt hlt) hge⟩

/-- The right bound is the end of the substring or of an entry of the range, and it is past every
end of the range. -/
theorem mergeRange_fst (held : ∀ e ∈ buf.entries, e.1 + e.2.length < 2 ^ 64)
    (mem : (validIdx, validStr) ∈ buf.entries) :
    let range := mergeRange buf validIdx validStr (validIdx + validStr.length)
    validIdx + validStr.length ≤ range.1 ∧
      (∀ e ∈ range.2, e.1 + e.2.length ≤ range.1) ∧
      (range.1 = validIdx + validStr.length ∨ ∃ e ∈ range.2, range.1 = e.1 + e.2.length) := by
  intro range
  have hstop : ∀ e ∈ buf.entries, Entry.stop e = e.1 + e.2.length := fun e he => add_eq (held e he)
  obtain ⟨hrb, hall, hmax⟩ := mergeRight_fst (add validIdx validStr.length) (buf.from validIdx)
    (max (Entry.stop (leftEnd buf validIdx validStr)) (validIdx + validStr.length))
  change range.1 = _ ∨ ∃ e ∈ _, range.1 = _ at hmax
  have hin : ∀ e ∈ range.2, Entry.stop e = e.1 + e.2.length := fun e he =>
    hstop e (mem_mergeRange he).1
  have hleft : leftNeighbour buf validIdx = none ∧ leftEnd buf validIdx validStr = (validIdx, validStr) ∨
      ∃ l, leftNeighbour buf validIdx = some l ∧ leftEnd buf validIdx validStr = l := by
    unfold leftEnd
    cases leftNeighbour buf validIdx with
    | none => exact .inl ⟨rfl, rfl⟩
    | some l => exact .inr ⟨l, rfl, rfl⟩
  refine ⟨Nat.le_trans (Nat.le_max_right _ _) hrb, ?_, ?_⟩
  · intro e he
    rw [← hin e he]
    rcases List.mem_append.mp he with hl | hr
    · rcases hleft with ⟨hnone, -⟩ | ⟨l, hsome, hend⟩
      · rw [hnone] at hl; cases hl
      · rw [hsome, Option.toList_some, List.mem_singleton] at hl
        subst hl
        exact hend ▸ Nat.le_trans (Nat.le_max_left _ _) hrb
    · exact hall e hr
  · rcases hmax with hmax | ⟨e, he, hmax⟩
    · rcases hleft with ⟨-, hend⟩ | ⟨l, hsome, hend⟩
      · left
        rw [hend, show Entry.stop (validIdx, validStr) = validIdx + validStr.length from hstop _ mem,
          Nat.max_self] at hmax
        exact hmax
      · have hmem : l ∈ range.2 := List.mem_append_left _ (by rw [hsome]; exact List.mem_singleton_self l)
        rw [hend, hin l hmem] at hmax
        rcases Nat.le_total (l.1 + l.2.length) (validIdx + validStr.length) with hle | hle
        · exact .inl (hmax.trans (Nat.max_eq_right hle))
        · exact .inr ⟨l, hmem, hmax.trans (Nat.max_eq_left hle)⟩
    · have hmem : e ∈ range.2 := List.mem_append_right _ he
      exact .inr ⟨e, hmem, hmax.trans (hin e hmem)⟩

/-- Every piece of the range starts below the end of the substring. -/
theorem mergeRange_start_lt (held : ∀ e ∈ buf.entries, e.1 + e.2.length < 2 ^ 64)
    (mem : (validIdx, validStr) ∈ buf.entries) {rb : Nat} {e : Entry}
    (he : e ∈ (mergeRange buf validIdx validStr rb).2) : e.1 < validIdx + validStr.length := by
  rcases List.mem_append.mp he with hl | hr
  · cases hl' : leftNeighbour buf validIdx with
    | none => rw [hl'] at hl; cases hl
    | some l =>
      rw [hl', Option.toList_some, List.mem_singleton] at hl
      subst hl
      have hlt := (SortedMap.lower?_eq_some (leftNeighbour_eq_some hl').1).2.1
      omega
  · have hlt := (mem_mergeRight hr).2
    rwa [add_eq (held _ mem)] at hlt

/-- The range is contiguous: every index from `iterL` to the right bound lies in one of its
entries. -/
theorem mergeRange_covers (held : ∀ e ∈ buf.entries, e.1 + e.2.length < 2 ^ 64)
    (mem : (validIdx, validStr) ∈ buf.entries) {k : Nat}
    (hlo : (leftEnd buf validIdx validStr).1 ≤ k)
    (hhi : k < (mergeRange buf validIdx validStr (validIdx + validStr.length)).1) :
    ∃ e ∈ (mergeRange buf validIdx validStr (validIdx + validStr.length)).2, Entry.Has e k := by
  obtain ⟨-, -, hmax⟩ := mergeRange_fst held mem
  have hbound : add validIdx validStr.length = validIdx + validStr.length := add_eq (held _ mem)
  rcases Nat.lt_or_ge k validIdx with hbefore | hafter
  · -- before the substring only the left neighbour can stand, and it reaches past `validIdx`
    unfold leftEnd at hlo
    cases hl : leftNeighbour buf validIdx with
    | none => rw [hl, Option.getD_none] at hlo; omega
    | some l =>
      rw [hl, Option.getD_some] at hlo
      obtain ⟨hlow, hreach⟩ := leftNeighbour_eq_some hl
      have hstop : Entry.stop l = l.1 + l.2.length :=
        add_eq (held l (SortedMap.lower?_eq_some hlow).1)
      refine ⟨l, List.mem_append_left _ (by rw [hl]; exact List.mem_singleton_self l), hlo, ?_⟩
      omega
  rcases Nat.lt_or_ge k (validIdx + validStr.length) with hinside | hpast
  · refine ⟨(validIdx, validStr), List.mem_append_right _ ?_, hafter, hinside⟩
    refine mem_mergeRight_of_lt (buf.sorted.filter _) ?_ ?_
    · exact SortedMap.mem_from.mpr ⟨mem, Nat.lt_irrefl _⟩
    · rw [hbound]; dsimp only; omega
  · -- past the substring the entry that gave the right bound covers
    rcases hmax with hmax | ⟨e, he, hmax⟩
    · omega
    · have hstart := mergeRange_start_lt held mem he
      exact ⟨e, he, by omega, by omega⟩

theorem leftEnd_le (buf : SortedMap Nat Bytes) (validIdx : Nat) (validStr : Bytes) :
    (leftEnd buf validIdx validStr).1 ≤ validIdx := by
  unfold leftEnd
  cases hl : leftNeighbour buf validIdx with
  | none => exact Nat.le_refl _
  | some l => exact Nat.le_of_lt (SortedMap.lower?_eq_some (leftNeighbour_eq_some hl).1).2.1

theorem mergeRange_fst_lt (held : ∀ e ∈ buf.entries, e.1 + e.2.length < 2 ^ 64)
    (mem : (validIdx, validStr) ∈ buf.entries) :
    (mergeRange buf validIdx validStr (validIdx + validStr.length)).1 < 2 ^ 64 := by
  obtain ⟨-, -, hmax⟩ := mergeRange_fst held mem
  rcases hmax with hmax | ⟨e, he, hmax⟩
  · rw [hmax]; exact held _ mem
  · rw [hmax]; exact held e (mem_mergeRange he).1

theorem length_mergedStr (held : ∀ e ∈ buf.entries, e.1 + e.2.length < 2 ^ 64)
    (mem : (validIdx, validStr) ∈ buf.entries) :
    (leftEnd buf validIdx validStr).1 +
        (mergedStr buf validIdx validStr (validIdx + validStr.length)).length =
      (mergeRange buf validIdx validStr (validIdx + validStr.length)).1 := by
  have hle := leftEnd_le buf validIdx validStr
  have hrb := (mergeRange_fst held mem).1
  have hlt := mergeRange_fst_lt held mem
  simp only [mergedStr, List.length_paint, List.length_replicate]
  rw [sub_eq (by omega) hlt]
  omega

theorem mergedStr_ne_nil (held : ∀ e ∈ buf.entries, e.1 + e.2.length < 2 ^ 64)
    (mem : (validIdx, validStr) ∈ buf.entries) (nonempty : validStr ≠ []) :
    mergedStr buf validIdx validStr (validIdx + validStr.length) ≠ [] := by
  have hlen := length_mergedStr held mem
  have hle := leftEnd_le buf validIdx validStr
  have hrb := (mergeRange_fst held mem).1
  have hpos := List.length_pos_iff.mpr nonempty
  apply List.length_pos_iff.mp
  omega

/-- **The merged string is an excerpt**, whatever stood in the map: its entries are excerpts, and
the range they are painted from leaves no gap. -/
theorem mergedStr_held (held : ∀ e ∈ buf.entries, Held S e)
    (mem : (validIdx, validStr) ∈ buf.entries) :
    Held S ((leftEnd buf validIdx validStr).1,
      mergedStr buf validIdx validStr (validIdx + validStr.length)) := by
  have inRange : ∀ e ∈ buf.entries, e.1 + e.2.length < 2 ^ 64 := fun e he => (held e he).inRange
  have hlen := length_mergedStr inRange mem
  refine ⟨List.paint_excerpt ?_ ?_, ?_⟩
  · intro e he
    obtain ⟨hmem, hge⟩ := mem_mergeRange he
    exact ⟨hge, (held e hmem).excerpt⟩
  · intro k hlo hhi
    refine mergeRange_covers inRange mem hlo ?_
    rw [← hlen]
    simpa only [mergedStr, List.length_paint] using hhi
  · dsimp only
    rw [hlen]
    exact mergeRange_fst_lt inRange mem

/-! ## The merged map -/

theorem mem_foldl_erase {l : List Entry} {m : SortedMap Nat Bytes} {e : Entry} :
    e ∈ (l.foldl (fun m p => m.erase p.1) m).entries ↔
      e ∈ m.entries ∧ ∀ p ∈ l, e.1 ≠ p.1 := by
  induction l generalizing m with
  | nil => exact ⟨fun h => ⟨h, fun _ hp => by cases hp⟩, fun h => h.1⟩
  | cons p l ih =>
    rw [List.foldl_cons, ih, SortedMap.mem_erase, List.forall_mem_cons, and_assoc]

/-- After the merge the map holds the merged string and old entries. -/
theorem mem_mergeAt {rb : Nat} {e : Entry} (h : e ∈ (mergeAt buf validIdx validStr rb).entries) :
    e = ((leftEnd buf validIdx validStr).1, mergedStr buf validIdx validStr rb) ∨
      e ∈ buf.entries := by
  obtain ⟨hmem, -⟩ := mem_foldl_erase.mp h
  rcases SortedMap.mem_insert.mp hmem with rfl | ⟨hbuf, -⟩
  · exact .inl rfl
  · exact .inr hbuf

/-- The range takes in every entry that starts inside the substring. -/
theorem mem_mergeRange_self (held : ∀ e ∈ buf.entries, e.1 + e.2.length < 2 ^ 64)
    (mem : (validIdx, validStr) ∈ buf.entries) (rb : Nat) {e : Entry} (he : e ∈ buf.entries)
    (hlo : validIdx ≤ e.1) (hhi : e.1 < validIdx + validStr.length) :
    e ∈ (mergeRange buf validIdx validStr rb).2 := by
  refine List.mem_append_right _ (mem_mergeRight_of_lt (buf.sorted.filter _) ?_ ?_)
  · exact SortedMap.mem_from.mpr ⟨he, Nat.not_lt.mpr hlo⟩
  · rwa [add_eq (held _ mem)]

/-- The range runs in key order. -/
theorem mergeRange_sorted (buf : SortedMap Nat Bytes) (validIdx : Nat) (validStr : Bytes) (rb : Nat) :
    (mergeRange buf validIdx validStr rb).2.Pairwise (fun a b => a.1 < b.1) := by
  have hright : ∀ (bound rb : Nat),
      (mergeRight bound (buf.from validIdx) rb).2.Pairwise (fun a b => a.1 < b.1) :=
    fun bound rb => (buf.sorted.filter _).sublist (mergeRight_sublist bound _ rb)
  unfold mergeRange
  dsimp only
  cases hl : leftNeighbour buf validIdx with
  | none => exact hright _ _
  | some l =>
    refine List.pairwise_cons.mpr ⟨fun e he => ?_, hright _ _⟩
    obtain ⟨-, hlt, -⟩ := SortedMap.lower?_eq_some (leftNeighbour_eq_some hl).1
    have hge := (SortedMap.mem_from.mp (mem_mergeRight he).1).2
    exact Nat.lt_of_lt_of_le hlt (Nat.le_of_not_lt hge)

/-- The entry at `iterL` belongs to the range. -/
theorem leftEnd_mem (held : ∀ e ∈ buf.entries, e.1 + e.2.length < 2 ^ 64)
    (mem : (validIdx, validStr) ∈ buf.entries) (nonempty : validStr ≠ []) (rb : Nat) :
    leftEnd buf validIdx validStr ∈ (mergeRange buf validIdx validStr rb).2 := by
  have hpos := List.length_pos_iff.mpr nonempty
  have hself := mem_mergeRange_self held mem rb mem (Nat.le_refl _) (by dsimp only; omega)
  unfold leftEnd
  cases hl : leftNeighbour buf validIdx with
  | none => exact hself
  | some l =>
    refine List.mem_append_left _ ?_
    rw [hl]
    exact List.mem_singleton_self l

/-- The first entry of the range stands at `iterL`. -/
theorem mergeRange_head (held : ∀ e ∈ buf.entries, e.1 + e.2.length < 2 ^ 64)
    (mem : (validIdx, validStr) ∈ buf.entries) (nonempty : validStr ≠ []) (rb : Nat) :
    ∃ head tail, (mergeRange buf validIdx validStr rb).2 = head :: tail ∧
      head.1 = (leftEnd buf validIdx validStr).1 := by
  have hleft := leftEnd_mem held mem nonempty rb
  have hsorted := mergeRange_sorted buf validIdx validStr rb
  have hge : ∀ e ∈ (mergeRange buf validIdx validStr rb).2, _ ≤ e.1 := fun _ he =>
    (mem_mergeRange he).2
  cases hr : (mergeRange buf validIdx validStr rb).2 with
  | nil => rw [hr] at hleft; cases hleft
  | cons head tail =>
    rw [hr] at hleft hsorted hge
    refine ⟨head, tail, rfl, Nat.le_antisymm ?_ (hge head List.mem_cons_self)⟩
    rcases List.mem_cons.mp hleft with heq | htail
    · exact Nat.le_of_eq (congrArg Prod.fst heq.symm)
    · exact Nat.le_of_lt ((List.pairwise_cons.mp hsorted).1 _ htail)

/-- **The merged map**: the merged string, and the entries outside the range. -/
theorem mem_mergeAt_iff (held : ∀ e ∈ buf.entries, e.1 + e.2.length < 2 ^ 64)
    (mem : (validIdx, validStr) ∈ buf.entries) (nonempty : validStr ≠ []) {rb : Nat} {e : Entry} :
    e ∈ (mergeAt buf validIdx validStr rb).entries ↔
      e = ((leftEnd buf validIdx validStr).1, mergedStr buf validIdx validStr rb) ∨
        e ∈ buf.entries ∧ e ∉ (mergeRange buf validIdx validStr rb).2 := by
  obtain ⟨head, tail, hrange, hhead⟩ := mergeRange_head held mem nonempty rb
  have hsorted := mergeRange_sorted buf validIdx validStr rb
  have hin : ∀ p ∈ head :: tail, p ∈ buf.entries := fun p hp => (mem_mergeRange (hrange ▸ hp)).1
  rw [hrange] at hsorted
  obtain ⟨hfirst, -⟩ := List.pairwise_cons.mp hsorted
  rw [mergeAt, mem_foldl_erase, hrange, List.tail_cons, SortedMap.mem_insert, ← hhead]
  constructor
  · rintro ⟨rfl | ⟨hmem, hne⟩, hkeep⟩
    · exact .inl rfl
    · refine .inr ⟨hmem, fun h => ?_⟩
      rcases List.mem_cons.mp h with rfl | htail
      · exact hne rfl
      · exact hkeep e htail rfl
  · rintro (rfl | ⟨hmem, hout⟩)
    · exact ⟨.inl rfl, fun p hp => Nat.ne_of_lt (hfirst p hp)⟩
    · have hkey : ∀ p ∈ head :: tail, e.1 ≠ p.1 := fun p hp heq =>
        hout (SortedMap.entry_unique hmem (hin p hp) heq ▸ hp)
      exact ⟨.inr ⟨hmem, hkey head List.mem_cons_self⟩, fun p hp => hkey p (List.mem_cons_of_mem _ hp)⟩

end Merged

/-! ## An empty substring -/

/-- An empty substring meets no entry on its right. -/
theorem mergeRange_nil (buf : SortedMap Nat Bytes) (validIdx rb : Nat) :
    mergeRange buf validIdx [] rb =
      (max (Entry.stop (leftEnd buf validIdx [])) rb, (leftNeighbour buf validIdx).toList) := by
  have hbound : add validIdx ([] : Bytes).length ≤ validIdx := Nat.mod_le _ _
  have hnone : ∀ rightBound,
      mergeRight (add validIdx ([] : Bytes).length) (buf.from validIdx) rightBound = (rightBound, []) := by
    intro rightBound
    cases hfrom : buf.from validIdx with
    | nil => rfl
    | cons e rest =>
      have hmem : e ∈ buf.from validIdx := hfrom ▸ List.mem_cons_self
      have hge := (SortedMap.mem_from.mp hmem).2
      rw [mergeRight, if_neg (by omega)]
  rw [mergeRange, hnone, List.append_nil]

/-- **Merging an empty substring changes no string**: without a left neighbour the range is empty, and a
left neighbour is painted over itself. -/
theorem mergeAt_nil {buf : SortedMap Nat Bytes} {validIdx : Nat} (mem : (validIdx, []) ∈ buf.entries)
    (inRange : validIdx < 2 ^ 64) (short : ∀ e ∈ buf.entries, e.2.length < 2 ^ 64) :
    mergeAt buf validIdx [] validIdx = buf := by
  rw [mergeAt, mergedStr, mergeRange_nil]
  dsimp only
  cases hl : leftNeighbour buf validIdx with
  | none =>
    have hend : leftEnd buf validIdx [] = (validIdx, []) := by rw [leftEnd, hl, Option.getD_none]
    have hstop : Entry.stop (validIdx, ([] : Bytes)) = validIdx := add_eq inRange
    rw [hend, hstop, Nat.max_self, sub_eq (Nat.le_refl _) inRange, Nat.sub_self]
    exact SortedMap.insert_of_mem mem
  | some l =>
    obtain ⟨hlow, hreach⟩ := leftNeighbour_eq_some hl
    obtain ⟨hmem, hlt, -⟩ := SortedMap.lower?_eq_some hlow
    have hend : leftEnd buf validIdx [] = l := by rw [leftEnd, hl, Option.getD_some]
    have hstop : Entry.stop l = l.1 + l.2.length := by
      have hshort := short l hmem
      unfold Entry.stop add at hreach ⊢
      omega
    have hstop' : Entry.stop l < 2 ^ 64 := Word64.add_lt _ _
    rw [hend, Nat.max_eq_left (Nat.le_of_lt hreach), sub_eq (by omega) hstop', hstop,
      Nat.add_sub_cancel_left, Option.toList_some, List.tail_cons, List.foldl_nil,
      List.paint_single _ _ List.length_replicate]
    exact SortedMap.insert_of_mem hmem

/-! ## A tiled map -/

/-- No entry reaches into a later one. -/
def Apart (buf : SortedMap Nat Bytes) : Prop :=
  ∀ a ∈ buf.entries, ∀ b ∈ buf.entries, a.1 < b.1 → a.1 + a.2.length ≤ b.1

/-- The entries are nonempty and do not overlap. -/
structure Tiled (buf : SortedMap Nat Bytes) : Prop where
  nonempty : ∀ e ∈ buf.entries, e.2 ≠ []
  apart : ∀ a ∈ buf.entries, ∀ b ∈ buf.entries, a.1 < b.1 → a.1 + a.2.length ≤ b.1

section Tiling

variable {buf : SortedMap Nat Bytes} {validIdx : Nat} {validStr : Bytes}

/-- Storing a substring leaves every entry's end a 64-bit index. -/
theorem insert_inRange (held : ∀ e ∈ buf.entries, e.1 + e.2.length < 2 ^ 64)
    (inRange : validIdx + validStr.length < 2 ^ 64) :
    ∀ e ∈ (buf.insert validIdx validStr).entries, e.1 + e.2.length < 2 ^ 64 := by
  intro e he
  rcases SortedMap.mem_insert.mp he with rfl | ⟨hmem, -⟩
  · exact inRange
  · exact held e hmem

/-- The greatest entry below a new one was there before. -/
theorem lower_insert {l : Entry}
    (h : (buf.insert validIdx validStr).lower? validIdx = some l) : l ∈ buf.entries := by
  obtain ⟨hmem, hlt, -⟩ := SortedMap.lower?_eq_some h
  rcases SortedMap.mem_insert.mp hmem with rfl | ⟨hold, -⟩
  · exact absurd hlt (Nat.lt_irrefl _)
  · exact hold

/-- An entry before the substring that is not merged ends before the merged piece. -/
theorem outside_left (held : ∀ e ∈ (buf.insert validIdx validStr).entries, e.1 + e.2.length < 2 ^ 64)
    (apart : Apart buf) {e : Entry} (hold : e ∈ buf.entries)
    (he : e ∈ (buf.insert validIdx validStr).entries) (hbefore : e.1 < validIdx)
    (hout : leftNeighbour (buf.insert validIdx validStr) validIdx ≠ some e) :
    e.1 + e.2.length ≤ (leftEnd (buf.insert validIdx validStr) validIdx validStr).1 := by
  cases hl : leftNeighbour (buf.insert validIdx validStr) validIdx with
  | some l =>
    have hlow := (leftNeighbour_eq_some hl).1
    rw [leftEnd, hl, Option.getD_some]
    rcases (SortedMap.lower?_eq_some hlow).2.2 e he hbefore with rfl | hel
    · exact absurd hl hout
    · exact apart e hold l (lower_insert hlow) hel
  | none =>
    rw [leftEnd, hl, Option.getD_none]
    rcases leftNeighbour_eq_none hl with hnone | ⟨l, hlow, hstop⟩
    · exact absurd hbefore (SortedMap.lower?_eq_none.mp hnone e he)
    · obtain ⟨hmem, hlt, hlast⟩ := SortedMap.lower?_eq_some hlow
      rw [Entry.stop, add_eq (held l hmem)] at hstop
      rcases hlast e he hbefore with rfl | hel
      · exact hstop
      · have hapart := apart e hold l (lower_insert hlow) hel
        exact Nat.le_trans hapart (Nat.le_of_lt hlt)

/-- An entry past the substring that is not merged starts behind the merged piece. -/
theorem outside_right (held : ∀ e ∈ (buf.insert validIdx validStr).entries, e.1 + e.2.length < 2 ^ 64)
    (apart : Apart buf) {e : Entry} (hold : e ∈ buf.entries)
    (hpast : validIdx + validStr.length ≤ e.1) :
    (mergeRange (buf.insert validIdx validStr) validIdx validStr
      (validIdx + validStr.length)).1 ≤ e.1 := by
  have mem : (validIdx, validStr) ∈ (buf.insert validIdx validStr).entries :=
    SortedMap.mem_insert.mpr (.inl rfl)
  obtain ⟨-, -, hmax⟩ := mergeRange_fst held mem
  rcases hmax with hmax | ⟨p, hp, hmax⟩
  · rw [hmax]; exact hpast
  · rw [hmax]
    have hstart := mergeRange_start_lt held mem hp
    rcases SortedMap.mem_insert.mp (mem_mergeRange hp).1 with rfl | ⟨hpold, -⟩
    · exact hpast
    · exact apart p hpold e hold (Nat.lt_of_lt_of_le hstart hpast)

/-- An entry that stays outside the range lies before it or after it. -/
theorem outside_mergeRange (held : ∀ e ∈ buf.entries, e.1 + e.2.length < 2 ^ 64)
    (inRange : validIdx + validStr.length < 2 ^ 64) (apart : Apart buf) (nonempty : validStr ≠ [])
    {e : Entry} (he : e ∈ (buf.insert validIdx validStr).entries)
    (hout : e ∉ (mergeRange (buf.insert validIdx validStr) validIdx validStr
      (validIdx + validStr.length)).2) :
    e ∈ buf.entries ∧
      (e.1 + e.2.length ≤ (leftEnd (buf.insert validIdx validStr) validIdx validStr).1 ∨
        (mergeRange (buf.insert validIdx validStr) validIdx validStr
          (validIdx + validStr.length)).1 ≤ e.1) := by
  have hpos := List.length_pos_iff.mpr nonempty
  have held' := insert_inRange held inRange
  have mem : (validIdx, validStr) ∈ (buf.insert validIdx validStr).entries :=
    SortedMap.mem_insert.mpr (.inl rfl)
  have hold : e ∈ buf.entries := by
    rcases SortedMap.mem_insert.mp he with rfl | ⟨hmem, -⟩
    · exact absurd (mem_mergeRange_self held' mem _ mem (Nat.le_refl _) (by dsimp only; omega)) hout
    · exact hmem
  refine ⟨hold, ?_⟩
  rcases Nat.lt_or_ge e.1 validIdx with hbefore | hafter
  · refine .inl (outside_left held' apart hold he hbefore fun hl => hout ?_)
    refine List.mem_append_left _ ?_
    rw [hl]
    exact List.mem_singleton_self e
  · refine .inr (outside_right held' apart hold ?_)
    by_contra hlt
    exact hout (mem_mergeRange_self held' mem _ he hafter (Nat.lt_of_not_le hlt))

/-- **Merging keeps the entries apart.** -/
theorem mergeAt_apart (held : ∀ e ∈ buf.entries, e.1 + e.2.length < 2 ^ 64)
    (inRange : validIdx + validStr.length < 2 ^ 64) (apart : Apart buf) (nonempty : validStr ≠ []) :
    Apart (mergeAt (buf.insert validIdx validStr) validIdx validStr (validIdx + validStr.length)) := by
  have held' := insert_inRange held inRange
  have mem : (validIdx, validStr) ∈ (buf.insert validIdx validStr).entries :=
    SortedMap.mem_insert.mpr (.inl rfl)
  have hlen := length_mergedStr held' mem
  intro a ha b hb hab
  rcases (mem_mergeAt_iff held' mem nonempty).mp ha with rfl | ⟨hma, houta⟩ <;>
    rcases (mem_mergeAt_iff held' mem nonempty).mp hb with rfl | ⟨hmb, houtb⟩
  · exact absurd hab (Nat.lt_irrefl _)
  · obtain ⟨-, hb' | hb'⟩ := outside_mergeRange held inRange apart nonempty hmb houtb
    · dsimp only at hab; omega
    · dsimp only; omega
  · obtain ⟨-, ha' | ha'⟩ := outside_mergeRange held inRange apart nonempty hma houta
    · exact ha'
    · have hle := leftEnd_le (buf.insert validIdx validStr) validIdx validStr
      have hrb := (mergeRange_fst held' mem).1
      dsimp only at hab; omega
  · exact apart a (outside_mergeRange held inRange apart nonempty hma houta).1 b
      (outside_mergeRange held inRange apart nonempty hmb houtb).1 hab

/-- **Merging keeps the tiling.** -/
theorem mergeAt_tiled (held : ∀ e ∈ buf.entries, e.1 + e.2.length < 2 ^ 64)
    (inRange : validIdx + validStr.length < 2 ^ 64) (tiled : Tiled buf)
    (nonempty : validStr ≠ []) :
    Tiled (mergeAt (buf.insert validIdx validStr) validIdx validStr
      (validIdx + validStr.length)) := by
  have held' := insert_inRange held inRange
  have mem : (validIdx, validStr) ∈ (buf.insert validIdx validStr).entries :=
    SortedMap.mem_insert.mpr (.inl rfl)
  refine ⟨fun e he => ?_, mergeAt_apart held inRange tiled.apart nonempty⟩
  rcases (mem_mergeAt_iff held' mem nonempty).mp he with rfl | ⟨hmem, hout⟩
  · exact mergedStr_ne_nil held' mem nonempty
  · exact tiled.nonempty e (outside_mergeRange held inRange tiled.apart nonempty hmem hout).1

/-- **Merging covers exactly the old indices and the new ones.** A shorter entry at the same index
may have been replaced; the new substring covers it. -/
theorem mergeAt_covers (held : ∀ e ∈ buf.entries, e.1 + e.2.length < 2 ^ 64)
    (inRange : validIdx + validStr.length < 2 ^ 64) (nonempty : validStr ≠ [])
    (longer : ∀ old, buf.find? validIdx = some old → old.length < validStr.length) (i : Nat) :
    Covers (mergeAt (buf.insert validIdx validStr) validIdx validStr
        (validIdx + validStr.length)) i ↔
      Covers buf i ∨ validIdx ≤ i ∧ i < validIdx + validStr.length := by
  have held' := insert_inRange held inRange
  have mem : (validIdx, validStr) ∈ (buf.insert validIdx validStr).entries :=
    SortedMap.mem_insert.mpr (.inl rfl)
  have hlen := length_mergedStr held' mem
  have hle := leftEnd_le (buf.insert validIdx validStr) validIdx validStr
  obtain ⟨hrb, hends, -⟩ := mergeRange_fst held' mem
  have old_or_new : ∀ e ∈ (buf.insert validIdx validStr).entries, Entry.Has e i →
      Covers buf i ∨ validIdx ≤ i ∧ i < validIdx + validStr.length := by
    intro e he hi
    rcases SortedMap.mem_insert.mp he with rfl | ⟨hmem, -⟩
    · exact .inr hi
    · exact .inl ⟨e, hmem, hi⟩
  have merged : ∀ {k}, (leftEnd (buf.insert validIdx validStr) validIdx validStr).1 ≤ k →
      k < (mergeRange (buf.insert validIdx validStr) validIdx validStr
        (validIdx + validStr.length)).1 →
      Covers (mergeAt (buf.insert validIdx validStr) validIdx validStr
        (validIdx + validStr.length)) k := by
    intro k hlo hhi
    refine ⟨_, (mem_mergeAt_iff held' mem nonempty).mpr (.inl rfl), hlo, ?_⟩
    dsimp only
    omega
  constructor
  · rintro ⟨e, he, hi⟩
    rcases (mem_mergeAt_iff held' mem nonempty).mp he with rfl | ⟨hmem, -⟩
    · obtain ⟨p, hp, hpi⟩ := mergeRange_covers held' mem hi.1 (hlen ▸ hi.2)
      exact old_or_new p (mem_mergeRange hp).1 hpi
    · exact old_or_new e hmem hi
  · rintro (⟨e, he, hi⟩ | ⟨hlo, hhi⟩)
    · by_cases hkey : e.1 = validIdx
      · have hshort := longer e.2 (SortedMap.find?_eq_some.mpr (hkey ▸ he))
        have := hi.1
        have := hi.2
        exact merged (by omega) (by omega)
      · have he' : e ∈ (buf.insert validIdx validStr).entries :=
          SortedMap.mem_insert.mpr (.inr ⟨he, hkey⟩)
        by_cases hin : e ∈ (mergeRange (buf.insert validIdx validStr) validIdx validStr
            (validIdx + validStr.length)).2
        · exact merged (Nat.le_trans (mem_mergeRange hin).2 hi.1)
            (Nat.lt_of_lt_of_le hi.2 (hends e hin))
        · exact ⟨e, (mem_mergeAt_iff held' mem nonempty).mpr (.inr ⟨he', hin⟩), hi⟩
    · exact merged (by omega) (by omega)

end Tiling

end StreamReassembler

end Sponge
