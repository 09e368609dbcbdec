import Mathlib.Data.Finset.Card
import Mathlib.Order.Bounds.Basic
import Mathlib.Order.Interval.Finset.Nat
import Sponge.Lib.Run
import Sponge.Laws.Stream.Reassembler

/-!
# Laws.Stream.Reassembly — pushes inside the capacity are reassembled completely

`Exact S C r` ties the reassembler to the set `C` of indices pushed so far: everything below the
expected index is written, everything above it that was pushed is stored exactly once, and nothing
else is stored. `pushSubstring_exact` keeps it for a nonempty excerpt of `S` that ends within the
capacity, counted from the first unread byte; inside that bound `fixCap` never evicts
(`Gathered.fixCap_eq`) and the output always has room for what was assembled
(`Gathered.writeStr_drained`).

The run laws at the end are about every interleaving of pushes and reads: completeness for pushes
inside the capacity (`Tracks`), and safety for any excerpts at all (`Clean`).
-/

namespace Sponge

open Word64 (add sub add_eq sub_eq)

namespace StreamReassembler

/-! ## Counting a tiled map -/

/-- The indices inside a list of entries. -/
def covered : List Entry → Finset Nat
  | [] => ∅
  | e :: l => Finset.Ico e.1 (e.1 + e.2.length) ∪ covered l

theorem mem_covered {l : List Entry} {i : Nat} : i ∈ covered l ↔ ∃ e ∈ l, Entry.Has e i := by
  induction l with
  | nil => exact ⟨fun h => absurd h (Finset.notMem_empty i), fun ⟨_, h, _⟩ => by cases h⟩
  | cons e l ih =>
    rw [covered, Finset.mem_union, Finset.mem_Ico, ih, List.exists_mem_cons_iff]
    rfl

/-- Entries that do not overlap hold as many bytes as they cover indices. -/
theorem card_covered {l : List Entry} (apart : l.Pairwise (fun a b => a.1 + a.2.length ≤ b.1)) :
    (covered l).card = storedBytes l := by
  induction l with
  | nil => rfl
  | cons e l ih =>
    obtain ⟨hfirst, hrest⟩ := List.pairwise_cons.mp apart
    have hdisj : Disjoint (Finset.Ico e.1 (e.1 + e.2.length)) (covered l) := by
      rw [Finset.disjoint_left]
      intro i hi hl
      obtain ⟨b, hb, hlo, -⟩ := mem_covered.mp hl
      have hstop := hfirst b hb
      have hi := (Finset.mem_Ico.mp hi).2
      omega
    rw [covered, Finset.card_union_of_disjoint hdisj, ih hrest, Nat.card_Ico]
    simp only [storedBytes, List.map_cons, List.sum_cons]
    omega

theorem Tiled.pairwise {buf : SortedMap Nat Bytes} (tiled : Tiled buf) :
    buf.entries.Pairwise (fun a b => a.1 + a.2.length ≤ b.1) :=
  buf.sorted.imp_of_mem fun ha hb hlt => tiled.apart _ ha _ hb hlt

/-- Entries between two bounds hold at most as many bytes as fit between the bounds. -/
theorem Tiled.storedBytes_le {buf : SortedMap Nat Bytes} (tiled : Tiled buf) {lo hi : Nat}
    (within : ∀ e ∈ buf.entries, lo ≤ e.1 ∧ e.1 + e.2.length ≤ hi) :
    storedBytes buf.entries ≤ hi - lo := by
  rw [← card_covered tiled.pairwise, ← Nat.card_Ico lo hi]
  refine Finset.card_le_card fun i hi => ?_
  obtain ⟨e, he, hlo, hhi⟩ := mem_covered.mp hi
  have := within e he
  exact Finset.mem_Ico.mpr (by omega)

/-! ## The stages of a push -/

/-- What holds between the stages: nothing overlaps, the pushed indices are those assembled or
stored, and they end within the stream and within the capacity. -/
structure Gathered (S : Bytes) (C : Finset Nat) (r : StreamReassembler) : Prop where
  safe : Safe S r
  tiled : Tiled r.unassemBuf
  ahead : ∀ e ∈ r.unassemBuf.entries, r.expectIdx ≤ e.1
  pushed : ∀ i, i ∈ C ↔ i < r.expectIdx ∨ Covers r.unassemBuf i
  inside : ∀ i ∈ C, i < S.length ∧ i < r.output.totalBytesRead + r.capacity
  sameCap : r.output.cap = r.capacity

variable {S : Bytes} {C : Finset Nat} {r : StreamReassembler} {data : Bytes} {index : Nat}

theorem Gathered.expectIdx_le (h : Gathered S C r) :
    r.expectIdx ≤ S.length ∧ r.expectIdx ≤ r.output.totalBytesRead + r.capacity := by
  rcases Nat.eq_zero_or_pos r.expectIdx with hzero | hpos
  · omega
  · have := h.inside (r.expectIdx - 1) ((h.pushed _).mpr (.inl (by omega)))
    omega

theorem Gathered.stop_le (h : Gathered S C r) {e : Entry} (he : e ∈ r.unassemBuf.entries) :
    e.1 + e.2.length ≤ S.length ∧
      e.1 + e.2.length ≤ r.output.totalBytesRead + r.capacity := by
  have hpos := List.length_pos_iff.mpr (h.tiled.nonempty e he)
  have hlast : e.1 + e.2.length - 1 ∈ C :=
    (h.pushed _).mpr (.inr ⟨e, he, by omega, by omega⟩)
  have := h.inside _ hlast
  omega

/-- Indices that are assembled or stored already add nothing. -/
theorem Gathered.absorb (h : Gathered S C r) {D : Finset Nat}
    (known : ∀ i ∈ D, i < r.expectIdx ∨ Covers r.unassemBuf i) : Gathered S (C ∪ D) r := by
  rw [Finset.union_eq_left.mpr fun i hi => (h.pushed i).mpr (known i hi)]
  exact h

/-- Merging what is not assembled of a substring into the map takes in the substring's indices. -/
theorem Gathered.merge (h : Gathered S C r) {merged : SortedMap Nat Bytes} {stop : Nat}
    (safe : Safe S { r with unassemBuf := merged }) (tiled : Tiled merged)
    (covers : ∀ i, Covers merged i ↔ Covers r.unassemBuf i ∨ max index r.expectIdx ≤ i ∧ i < stop)
    (inside : ∀ i, i < stop → i < S.length ∧ i < r.output.totalBytesRead + r.capacity) :
    Gathered S (C ∪ Finset.Ico index stop) { r with unassemBuf := merged } := by
  refine ⟨safe, tiled, fun e he => ?_, fun i => ?_, fun i hi => ?_, h.sameCap⟩
  · have hpos := List.length_pos_iff.mpr (tiled.nonempty e he)
    rcases (covers e.1).mp ⟨e, he, Nat.le_refl _, by omega⟩ with ⟨a, ha, hlo, -⟩ | ⟨hlo, -⟩
    · exact Nat.le_trans (h.ahead a ha) hlo
    · exact Nat.le_trans (Nat.le_max_right _ _) hlo
  · rw [Finset.mem_union, Finset.mem_Ico, h.pushed, covers, Nat.max_le]
    dsimp only
    rcases Nat.lt_or_ge i r.expectIdx with hi | hi
    · exact ⟨fun _ => .inl hi, fun _ => .inl (.inl hi)⟩
    · simp only [hi, and_true, or_assoc]
  · rcases Finset.mem_union.mp hi with hi | hi
    · exact h.inside i hi
    · exact inside i (Finset.mem_Ico.mp hi).2

/-- The merge stage takes in exactly the indices of the substring. -/
theorem pushUnassem_gathered (h : Gathered S C r) (next : List.Excerpt S index data)
    (nonempty : data ≠ []) (short : S.length < 2 ^ 63)
    (fit : index + data.length ≤ r.output.totalBytesRead + r.capacity) :
    Gathered S (C ∪ Finset.Ico index (index + data.length)) (r.pushUnassem data index) := by
  have hS := next.length_le nonempty
  have hsafe := pushUnassem_safe h.safe next (by omega)
  rcases pushUnassem_cases r data index (by omega) with
    ⟨heq, hdone⟩ | ⟨heq, hlt, old, hold, hlen⟩ | ⟨heq, hlt, hlonger⟩
  · -- everything of the substring is assembled already
    rw [heq]
    exact h.absorb fun i hi => .inl (Nat.lt_of_lt_of_le (Finset.mem_Ico.mp hi).2 hdone)
  · -- a stored substring covers what is not assembled
    rw [heq]
    refine h.absorb fun i hi => ?_
    obtain ⟨hlo, hhi⟩ := Finset.mem_Ico.mp hi
    rw [List.length_drop] at hlen
    rcases Nat.lt_or_ge i r.expectIdx with hi | hi
    · exact .inl hi
    · exact .inr ⟨_, SortedMap.find?_eq_some.mp hold, by dsimp only; omega, by dsimp only; omega⟩
  · have held : ∀ e ∈ r.unassemBuf.entries, e.1 + e.2.length < 2 ^ 64 :=
      fun e he => (h.safe.stored e he).inRange
    have hstop : max index r.expectIdx + (data.drop (r.expectIdx - index)).length =
        index + data.length := by
      rw [List.length_drop]
      omega
    have hpos := List.length_pos_iff.mpr nonempty
    have hne : data.drop (r.expectIdx - index) ≠ [] := by
      apply List.length_pos_iff.mp
      rw [List.length_drop]
      omega
    have hrange : max index r.expectIdx + (data.drop (r.expectIdx - index)).length < 2 ^ 64 := by
      omega
    rw [heq] at hsafe ⊢
    refine h.merge hsafe (mergeAt_tiled held hrange h.tiled hne) (fun i => ?_) fun i hi => by omega
    rw [mergeAt_covers held hrange hne hlonger i, hstop]

/-- **Inside the capacity nothing is evicted.** -/
theorem Gathered.fixCap_eq (h : Gathered S C r) (drained : r.assemBuf = []) : r.fixCap = r := by
  have hfits : r.assemBuf.length + storedBytes r.unassemBuf.entries ≤ r.capacity := by
    have hexpect := h.safe.expect
    have hwritten := h.safe.output.written
    have hstored := h.tiled.storedBytes_le fun e he => ⟨h.ahead e he, (h.stop_le he).2⟩
    rw [drained, List.length_nil] at hexpect ⊢
    omega
  apply Trimmed.fixCap_eq
  rcases List.eq_nil_or_concat r.unassemBuf.entries with hnone | ⟨front, last, hlast⟩
  · exact .inl hnone
  · refine .inr (.inr ⟨hfits, front, last, by rw [hlast, List.concat_eq_append], ?_⟩)
    refine h.tiled.nonempty last ?_
    rw [hlast, List.concat_eq_append]
    exact List.mem_append_right _ List.mem_cons_self

/-- The loop stops at the first gap: afterwards every entry starts past the expected index. -/
theorem assemLoop_gathered {l : List Entry} (hl : r.unassemBuf.entries = l) (h : Gathered S C r) :
    Gathered S C (assemLoop r l) ∧
      ∀ e ∈ (assemLoop r l).unassemBuf.entries, (assemLoop r l).expectIdx < e.1 := by
  induction l generalizing r with
  | nil =>
    refine ⟨h, fun e he => ?_⟩
    rw [assemLoop, hl] at he
    cases he
  | cons a l ih =>
    have ha : a ∈ r.unassemBuf.entries := by rw [hl]; exact List.mem_cons_self
    have hrest : (r.unassemBuf.erase a.1).entries = l := SortedMap.entries_erase_head hl
    have hin : ∀ e ∈ l, e ∈ r.unassemBuf.entries := fun e he => by
      rw [hl]
      exact List.mem_cons_of_mem _ he
    have hsorted := r.unassemBuf.sorted
    rw [hl] at hsorted
    have hafter := (List.pairwise_cons.mp hsorted).1
    rw [assemLoop]
    split
    next heq =>
      refine ih hrest ⟨h.safe.assemble (h.safe.stored a ha) heq, ⟨?_, ?_⟩, ?_, ?_, h.inside, h.sameCap⟩
      · intro e he
        exact h.tiled.nonempty e (SortedMap.mem_erase.mp he).1
      · intro e he f hf
        exact h.tiled.apart e (SortedMap.mem_erase.mp he).1 f (SortedMap.mem_erase.mp hf).1
      · intro e he
        rw [hrest] at he
        have := h.tiled.apart a ha e (hin e he) (hafter e he)
        dsimp only
        omega
      · intro i
        rw [h.pushed]
        constructor
        · rintro (hi | ⟨e, he, hlo, hhi⟩)
          · exact .inl (by dsimp only; omega)
          · rw [hl] at he
            rcases List.mem_cons.mp he with rfl | he
            · exact .inl (by dsimp only; omega)
            · exact .inr ⟨e, by rwa [hrest], hlo, hhi⟩
        · rintro (hi | ⟨e, he, hi⟩)
          · dsimp only at hi
            rcases Nat.lt_or_ge i r.expectIdx with hlt | hge
            · exact .inl hlt
            · exact .inr ⟨a, ha, by omega, by omega⟩
          · exact .inr ⟨e, (SortedMap.mem_erase.mp he).1, hi⟩
    next hne =>
      refine ⟨h, fun e he => ?_⟩
      have hfirst := h.ahead a ha
      rw [hl] at he
      rcases List.mem_cons.mp he with rfl | he
      · omega
      · have := hafter e he
        omega

theorem Gathered.assem (h : Gathered S C r) :
    Gathered S C r.assem ∧ ∀ e ∈ r.assem.unassemBuf.entries, r.assem.expectIdx < e.1 := by
  obtain ⟨hg, hgap⟩ := assemLoop_gathered rfl h
  exact ⟨⟨⟨hg.safe.output, hg.safe.assembled, hg.safe.expect, hg.safe.stored⟩, hg.tiled, hg.ahead,
    hg.pushed, hg.inside, hg.sameCap⟩, hgap⟩

theorem Gathered.writeStr (h : Gathered S C r) : Gathered S C r.writeStr where
  safe := writeStr_safe h.safe
  tiled := h.tiled
  ahead := h.ahead
  pushed := h.pushed
  inside := by
    show ∀ i ∈ C, i < S.length ∧ i < (r.output.write r.assemBuf).1.totalBytesRead + r.capacity
    rw [ByteStream.write_totalBytesRead]
    exact h.inside
  sameCap := (ByteStream.write_cap _ _).trans h.sameCap

/-- **The output has room for everything assembled.** -/
theorem Gathered.writeStr_drained (h : Gathered S C r)
    (open_or_idle : r.output.isEnd = false ∨ r.assemBuf = []) : r.writeStr.assemBuf = [] := by
  show r.assemBuf.drop (r.output.write r.assemBuf).2 = []
  rcases open_or_idle with hopen | hidle
  · rw [ByteStream.write_snd _ hopen, List.drop_eq_nil_iff]
    have hexpect := h.safe.expect
    have hwritten := h.safe.output.written
    have hle := h.expectIdx_le.2
    have hcap := h.sameCap
    omega
  · rw [hidle, List.drop_nil]

/-! ## A whole push -/

/-- The reassembler between pushes: nothing waits to be written, every stored entry lies past a
gap, and an ended output has the whole stream. -/
structure Exact (S : Bytes) (C : Finset Nat) (r : StreamReassembler) : Prop
    extends Gathered S C r where
  drained : r.assemBuf = []
  gap : ∀ e ∈ r.unassemBuf.entries, r.expectIdx < e.1
  counted : r.unassemSize = storedBytes r.unassemBuf.entries
  noted : r.eofIndex = S.length ∨ r.eofIndex = 2 ^ 64 - 1
  ended : r.output.isEnd = true → r.expectIdx = S.length

theorem exact_new (S : Bytes) (capacity : Nat) : Exact S ∅ (new capacity) where
  safe := safe_new S capacity
  tiled := ⟨(fun _ h => by cases h), (fun _ h => by cases h)⟩
  ahead := fun _ h => by cases h
  pushed := fun i => ⟨fun h => absurd h (Finset.notMem_empty i), by
    rintro (h | ⟨_, h, _⟩)
    · exact absurd h (Nat.not_lt_zero i)
    · cases h⟩
  inside := fun i h => absurd h (Finset.notMem_empty i)
  sameCap := rfl
  drained := rfl
  gap := fun _ h => by cases h
  counted := rfl
  noted := .inr rfl
  ended := fun h => by cases h

/-- Reading the output frees capacity and moves nothing else. -/
theorem Exact.popOutput (h : Exact S C r) (len : Nat) : Exact S C (r.popOutput len) where
  safe := h.safe.popOutput len
  tiled := h.tiled
  ahead := h.ahead
  pushed := h.pushed
  inside := fun i hi => by
    have := h.inside i hi
    show i < S.length ∧ i < (r.output.popOutput len).totalBytesRead + r.capacity
    rw [ByteStream.popOutput_totalBytesRead]
    omega
  sameCap := h.sameCap
  drained := h.drained
  gap := h.gap
  counted := h.counted
  noted := h.noted
  ended := h.ended

/-- With nothing left to assemble the expected index counts the bytes written. -/
theorem Exact.expectIdx_eq (h : Exact S C r) : r.expectIdx = r.output.totalBytesWritten := by
  have hexpect := h.safe.expect
  rwa [h.drained, List.length_nil, Nat.add_zero] at hexpect

/-- The bytes written are the longest prefix pushed. -/
theorem Exact.least (h : Exact S C r) : IsLeast {i | i ∉ C} r.output.totalBytesWritten := by
  rw [← h.expectIdx_eq]
  refine ⟨fun hmem => ?_, fun i hi => ?_⟩
  · rcases (h.pushed _).mp hmem with hlt | ⟨e, he, hlo, -⟩
    · exact Nat.lt_irrefl _ hlt
    · have := h.gap e he
      omega
  · by_contra hlt
    exact hi ((h.pushed i).mpr (.inl (Nat.lt_of_not_le hlt)))

/-- The unassembled bytes are the pushed indices past the bytes written, each counted once. -/
theorem Exact.unassembledBytes_eq (h : Exact S C r) :
    r.unassembledBytes = (C.filter (r.output.totalBytesWritten ≤ ·)).card := by
  rw [unassembledBytes, h.counted, ← card_covered h.tiled.pairwise, ← h.expectIdx_eq]
  congr 1
  ext i
  rw [mem_covered, Finset.mem_filter, h.pushed]
  constructor
  · rintro ⟨e, he, hi⟩
    have := h.gap e he
    exact ⟨.inr ⟨e, he, hi⟩, Nat.le_trans (Nat.le_of_lt this) hi.1⟩
  · rintro ⟨hlt | hcov, hge⟩
    · exact absurd hlt (Nat.not_lt.mpr hge)
    · exact hcov

theorem Gathered.noteEof (h : Gathered S C r) (n : Nat) :
    Gathered S C { r with eofIndex := n } :=
  ⟨⟨h.safe.output, h.safe.assembled, h.safe.expect, h.safe.stored⟩, h.tiled, h.ahead, h.pushed,
    h.inside, h.sameCap⟩

/-- The stages before the last one: they take the substring in, write all there is to write, keep
the end index, and do not end the output. -/
theorem Exact.stages (h : Exact S C r) (next : List.Excerpt S index data)
    (nonempty : data ≠ []) (short : S.length < 2 ^ 63)
    (fit : index + data.length ≤ r.output.totalBytesRead + r.capacity) {n : Nat}
    (noted : n = S.length ∨ n = 2 ^ 64 - 1) :
    let out := ({ r with eofIndex := n }.pushUnassem data index).fixCap.assem.writeStr
    Exact S (C ∪ Finset.Ico index (index + data.length)) out ∧ out.eofIndex = n ∧
      out.output.isEnd = r.output.isEnd := by
  intro out
  let stored := { r with eofIndex := n }.pushUnassem data index
  have hpush : Gathered S _ stored :=
    pushUnassem_gathered (h.toGathered.noteEof n) next nonempty short fit
  have hframe : stored = { r with eofIndex := n, unassemBuf := stored.unassemBuf } :=
    pushUnassem_frame _ data index
  have hdrained : stored.assemBuf = [] := by
    rw [hframe]
    exact h.drained
  have hout : out = stored.assem.writeStr := congrArg (·.assem.writeStr) (hpush.fixCap_eq hdrained)
  obtain ⟨hassem, hgap⟩ := hpush.assem
  obtain ⟨houtput, -, heof⟩ := assemLoop_frame stored stored.unassemBuf.entries
  have houtput : stored.assem.output = r.output := by
    refine houtput.trans ?_
    rw [hframe]
  have heof : stored.assem.eofIndex = n := by
    refine heof.trans ?_
    rw [hframe]
  have hexpect := hassem.safe.expect
  rw [houtput, ← h.expectIdx_eq] at hexpect
  have hle := hassem.expectIdx_le.1
  have hidle : stored.assem.output.isEnd = false ∨ stored.assem.assemBuf = [] := by
    rw [houtput]
    cases hend : r.output.isEnd with
    | false => exact .inl rfl
    | true =>
      right
      apply List.length_eq_zero_iff.mp
      have := h.ended hend
      omega
  have hend : stored.assem.writeStr.output.isEnd = r.output.isEnd :=
    (ByteStream.write_isEnd _ _).trans (congrArg ByteStream.isEnd houtput)
  rw [hout]
  refine ⟨⟨hassem.writeStr, hassem.writeStr_drained hidle, hgap, rfl, ?_, fun hc => ?_⟩, heof, hend⟩
  · show stored.assem.eofIndex = S.length ∨ stored.assem.eofIndex = 2 ^ 64 - 1
    rwa [heof]
  · have := h.ended (hend ▸ hc)
    show stored.assem.expectIdx = S.length
    omega

/-- The end flag is free for an output that is complete whenever the flag is set. -/
theorem Exact.setEnd (h : Exact S C r) {isEnd : Bool} (complete : isEnd = true → r.expectIdx = S.length) :
    Exact S C { r with output := { r.output with isEnd } } :=
  ⟨⟨⟨⟨h.safe.output.written, h.safe.output.buffered, h.safe.output.within⟩, h.safe.assembled,
    h.safe.expect, h.safe.stored⟩, h.tiled, h.ahead, h.pushed, h.inside, h.sameCap⟩, h.drained, h.gap,
    h.counted, h.noted, complete⟩

/-- The last stage ends the output when the expected index meets the end index. -/
theorem Exact.endOutput (h : Exact S C r) (short : S.length < 2 ^ 63) :
    Exact S C r.endOutput ∧ r.endOutput.expectIdx = r.expectIdx ∧
      r.endOutput.eofIndex = r.eofIndex ∧
      (r.endOutput.output.isEnd = true ↔ r.output.isEnd = true ∨ r.expectIdx = r.eofIndex) := by
  have hle := h.expectIdx_le.1
  have hnoted := h.noted
  have hlength : r.assemBuf.length = 0 := by rw [h.drained, List.length_nil]
  unfold StreamReassembler.endOutput
  by_cases hmeet : r.expectIdx = r.eofIndex
  · rw [if_pos ⟨hlength, hmeet⟩]
    exact ⟨h.setEnd fun _ => by omega, rfl, rfl, fun _ => .inr hmeet, fun _ => rfl⟩
  · rw [if_neg fun hc => hmeet hc.2]
    exact ⟨h, rfl, rfl, .inl, fun hc => hc.resolve_right hmeet⟩

/-- **A push inside the capacity is exact**: it takes in the indices of the substring, and it ends
the output when the expected index meets the end index. -/
theorem pushSubstring_exact (h : Exact S C r) (next : List.Excerpt S index data)
    (nonempty : data ≠ []) (short : S.length < 2 ^ 63)
    (fit : index + data.length ≤ r.output.totalBytesRead + r.capacity) {eof : Bool}
    (atEnd : eof = true → index + data.length = S.length) :
    Exact S (C ∪ Finset.Ico index (index + data.length)) (r.pushSubstring data index eof) ∧
      (r.pushSubstring data index eof).eofIndex = (if eof then S.length else r.eofIndex) ∧
      ((r.pushSubstring data index eof).output.isEnd = true ↔
        r.output.isEnd = true ∨ (r.pushSubstring data index eof).expectIdx =
          (r.pushSubstring data index eof).eofIndex) := by
  have hS := next.length_le nonempty
  have hlast : (if eof then add index data.length else r.eofIndex) =
      if eof then S.length else r.eofIndex := by
    cases eof with
    | false => rfl
    | true =>
      show add index data.length = S.length
      rw [add_eq (by omega), atEnd rfl]
  have hn : (if eof then S.length else r.eofIndex) = S.length ∨
      (if eof then S.length else r.eofIndex) = 2 ^ 64 - 1 := by
    cases eof with
    | false => exact h.noted
    | true => exact .inl rfl
  obtain ⟨hexact, heof, hend⟩ := h.stages next nonempty short fit hn
  obtain ⟨hexact', hexpect', heof', hend'⟩ := hexact.endOutput short
  rw [pushSubstring, noted_eq, hlast]
  refine ⟨hexact', heof'.trans heof, ?_⟩
  rw [hend', hexpect', heof', hend]

end StreamReassembler

/-! ## Whole runs -/

/-- A reassembler with what its two users did so far: the bytes read from the output, the indices
pushed, and whether a push with the end flag was made. -/
structure Session where
  reassembler : StreamReassembler
  readLog : Bytes
  pushed : Finset Nat
  eofSeen : Bool

namespace Session

/-- What the users may do: push a substring, pop bytes from the output, or read them. -/
inductive Op
  | push (data : Bytes) (index : Nat) (eof : Bool)
  | pop (len : Nat)
  | read (len : Nat)

def new (capacity : Nat) : Session := ⟨StreamReassembler.new capacity, [], ∅, false⟩

def step (s : Session) : Op → Session
  | .push data index eof =>
    { s with
      reassembler := s.reassembler.pushSubstring data index eof
      pushed := s.pushed ∪ Finset.Ico index (index + data.length)
      eofSeen := s.eofSeen || eof }
  | .pop len =>
    { s with
      reassembler := s.reassembler.popOutput len
      readLog := s.readLog ++ s.reassembler.output.buf.take len }
  | .read len =>
    { s with
      reassembler := { s.reassembler with output := (s.reassembler.output.read len).1 }
      readLog := s.readLog ++ (s.reassembler.output.read len).2 }

/-- Pushes are nonempty excerpts of `S`, flag the end only at the end of `S`, and end within the
capacity, counted from the first unread byte. Reads are free. -/
def Allowed (S : Bytes) (s : Session) : Op → Prop
  | .push data index eof =>
    data ≠ [] ∧ List.Excerpt S index data ∧ (eof = true → index + data.length = S.length) ∧
      index + data.length ≤ s.reassembler.output.bytesRead + s.reassembler.capacity
  | .pop _ | .read _ => True

instance (S : Bytes) (s : Session) : (op : Op) → Decidable (Allowed S s op)
  | .push _ _ _ => inferInstanceAs (Decidable (_ ∧ _ ∧ (_ → _) ∧ _))
  | .pop _ => inferInstanceAs (Decidable True)
  | .read _ => inferInstanceAs (Decidable True)

/-- The reassembler is exact for the indices pushed, the log is the front of the stream, and the
output has ended exactly when everything is written and the end was seen. -/
structure Tracks (S : Bytes) (s : Session) : Prop where
  exact : StreamReassembler.Exact S s.pushed s.reassembler
  log : s.readLog = S.take s.reassembler.output.totalBytesRead
  noted : s.reassembler.eofIndex = if s.eofSeen then S.length else 2 ^ 64 - 1
  ended : s.reassembler.output.isEnd = true ↔
    s.reassembler.expectIdx = S.length ∧ s.eofSeen = true

variable {S : Bytes} {s : Session}

theorem tracks_new (S : Bytes) (capacity : Nat) : Tracks S (new capacity) where
  exact := StreamReassembler.exact_new S capacity
  log := rfl
  noted := rfl
  ended := ⟨(fun h => by cases h), (fun h => by cases h.2)⟩

theorem Tracks.push (h : Tracks S s) (short : S.length < 2 ^ 63) {data : Bytes} {index : Nat}
    {eof : Bool} (ok : Allowed S s (.push data index eof)) :
    Tracks S (s.step (.push data index eof)) := by
  obtain ⟨nonempty, next, atEnd, fit⟩ := ok
  obtain ⟨hexact, heof, hend⟩ :=
    StreamReassembler.pushSubstring_exact h.exact next nonempty short fit atEnd
  have hnoted : (s.reassembler.pushSubstring data index eof).eofIndex =
      if s.eofSeen || eof then S.length else 2 ^ 64 - 1 := by
    rw [heof, h.noted]
    cases eof <;> cases s.eofSeen <;> rfl
  have hle := hexact.expectIdx_le.1
  have hread : (s.reassembler.pushSubstring data index eof).output.totalBytesRead =
      s.reassembler.output.totalBytesRead := StreamReassembler.pushSubstring_totalBytesRead ..
  rw [step]
  -- the push is a name from here on: nothing below looks into it
  generalize s.reassembler.pushSubstring data index eof = pushed at *
  refine ⟨hexact, ?_, hnoted, ?_⟩
  · dsimp only
    rw [h.log, hread]
  · dsimp only
    rw [hend, hnoted, h.ended]
    constructor
    · rintro (⟨hall, hseen⟩ | hmeet)
      · -- an output that had ended has the whole stream already
        have hdone := hexact.ended (hend.mpr (.inl (h.ended.mpr ⟨hall, hseen⟩)))
        exact ⟨hdone, by rw [hseen, Bool.true_or]⟩
      · cases hseen : s.eofSeen || eof with
        | true => exact ⟨by rwa [hseen] at hmeet, rfl⟩
        | false =>
          rw [hseen] at hmeet
          simp only [Bool.false_eq_true, if_false] at hmeet
          omega
    · rintro ⟨hall, hseen⟩
      exact .inr (by rw [hseen, hall]; rfl)

/-- Popping bytes moves them from the buffer to the log. -/
theorem Tracks.pop (h : Tracks S s) (len : Nat) : Tracks S (s.step (.pop len)) where
  exact := h.exact.popOutput len
  log := by
    have hlog := h.exact.safe.output.read_log h.log len
    rwa [ByteStream.peekOutput_eq] at hlog
  noted := h.noted
  ended := h.ended

/-- Reading is popping: what `read` answers is the front of the buffer. -/
theorem step_read (s : Session) (len : Nat) : s.step (.read len) = s.step (.pop len) := by
  simp only [step, ByteStream.read, ByteStream.peekOutput_eq, StreamReassembler.popOutput]

theorem Tracks.step (h : Tracks S s) (short : S.length < 2 ^ 63) {op : Op} (ok : Allowed S s op) :
    Tracks S (s.step op) := by
  cases op with
  | push data index eof => exact h.push short ok
  | pop len => exact h.pop len
  | read len =>
    rw [step_read]
    exact h.pop len

/-- **Order-independent complete reassembly.** After every run of pushes and reads the bytes written
are the longest prefix of the stream that was pushed, the unassembled bytes are the pushed indices
beyond it, and the output has ended exactly when that prefix is the stream and its end was seen. -/
theorem session_reassembles {capacity : Nat} (short : S.length < 2 ^ 63)
    (run : Runs.Reach step (Allowed S) (new capacity) s) :
    ∃ n, IsLeast {i | i ∉ s.pushed} n ∧
      s.reassembler.output.bytesWritten = n ∧
      s.readLog ++ s.reassembler.output.buf = S.take n ∧
      s.reassembler.unassembledBytes = (s.pushed.filter (n ≤ ·)).card ∧
      (s.reassembler.output.inputEnded = true ↔ n = S.length ∧ s.eofSeen = true) := by
  have h : Tracks S s := run.invariant (Tracks S) (tracks_new S capacity) fun _ _ ih ok => ih.step short ok
  refine ⟨s.reassembler.output.totalBytesWritten, h.exact.least, rfl, ?_, h.exact.unassembledBytes_eq, ?_⟩
  · rw [h.log, h.exact.safe.output.take_append]
  · rw [← h.exact.expectIdx_eq]
    exact h.ended

/-- Three bytes, pushed from the back with an overlap and read in between. -/
theorem session_reassembles_backwards :
    let s := [.push [3] 2 true, .push [2, 3] 1 false, .pop 4, .push [1, 2] 0 false, .read 2].foldl
      step (new 3)
    ∃ n, IsLeast {i | i ∉ s.pushed} n ∧
      s.reassembler.output.bytesWritten = n ∧
      s.readLog ++ s.reassembler.output.buf = [1, 2, 3].take n ∧
      s.reassembler.unassembledBytes = (s.pushed.filter (n ≤ ·)).card ∧
      (s.reassembler.output.inputEnded = true ↔ n = [1, 2, 3].length ∧ s.eofSeen = true) :=
  session_reassembles (S := [1, 2, 3]) (by decide) (Runs.reach_foldl .start (by decide))

/-! ## Any excerpt at all -/

/-- Pushes are excerpts of `S`, wherever they lie and however short, and flag the end only at the end
of `S`. Reads are free. -/
def Excerpts (S : Bytes) (_ : Session) : Op → Prop
  | .push data index eof =>
    List.Excerpt S index data ∧ index < 2 ^ 64 ∧ (eof = true → index + data.length = S.length)
  | .pop _ | .read _ => True

instance (S : Bytes) (s : Session) : (op : Op) → Decidable (Excerpts S s op)
  | .push _ _ _ => inferInstanceAs (Decidable (_ ∧ _ ∧ (_ → _)))
  | .pop _ => inferInstanceAs (Decidable True)
  | .read _ => inferInstanceAs (Decidable True)

/-- What such pushes keep: the reassembler is safe and ends well, and the log is the front of the
stream. -/
structure Clean (S : Bytes) (s : Session) : Prop where
  safe : StreamReassembler.Safe S s.reassembler
  ends : StreamReassembler.EndsWell S s.reassembler
  log : s.readLog = S.take s.reassembler.output.totalBytesRead

theorem clean_new (S : Bytes) (capacity : Nat) : Clean S (new capacity) where
  safe := StreamReassembler.safe_new S capacity
  ends := StreamReassembler.endsWell_new S capacity
  log := rfl

theorem Clean.pop (h : Clean S s) (len : Nat) : Clean S (s.step (.pop len)) where
  safe := h.safe.popOutput len
  ends := ⟨h.ends.noted, h.ends.ended⟩
  log := by
    have hlog := h.safe.output.read_log h.log len
    rwa [ByteStream.peekOutput_eq] at hlog

theorem Clean.push (h : Clean S s) (short : S.length < 2 ^ 63) {data : Bytes} {index : Nat}
    {eof : Bool} (ok : Excerpts S s (.push data index eof)) :
    Clean S (s.step (.push data index eof)) := by
  obtain ⟨next, hindex, atEnd⟩ := ok
  have inRange : index + data.length < 2 ^ 64 := by
    by_cases hdata : data = []
    · rwa [hdata]
    · have := next.length_le hdata
      omega
  have hsafe := StreamReassembler.pushSubstring_safe h.safe next inRange eof
  have hends := h.ends.push short hsafe atEnd
  have hread := StreamReassembler.pushSubstring_totalBytesRead s.reassembler data index eof
  rw [step]
  -- the push is a name from here on: nothing below looks into it
  generalize s.reassembler.pushSubstring data index eof = pushed at *
  exact ⟨hsafe, hends, by rw [hread, h.log]⟩

theorem Clean.step (h : Clean S s) (short : S.length < 2 ^ 63) {op : Op} (ok : Excerpts S s op) :
    Clean S (s.step op) := by
  cases op with
  | push data index eof => exact h.push short ok
  | pop len => exact h.pop len
  | read len =>
    rw [step_read]
    exact h.pop len

/-- **No wrong byte, whatever excerpts are pushed.** The bytes written are a prefix of the stream, the
expected index counts them and those waiting for room, and the output has ended only with all of the
stream written. -/
theorem session_safe {capacity : Nat} (short : S.length < 2 ^ 63)
    (run : Runs.Reach step (Excerpts S) (new capacity) s) :
    s.readLog ++ s.reassembler.output.buf = S.take s.reassembler.output.bytesWritten ∧
      s.reassembler.output.bytesWritten ≤ S.length ∧
      s.reassembler.expectIdx =
        s.reassembler.output.bytesWritten + s.reassembler.assemBuf.length ∧
      (s.reassembler.output.inputEnded = true → s.reassembler.output.bytesWritten = S.length) := by
  have h : Clean S s := run.invariant (Clean S) (clean_new S capacity) fun _ _ ih ok =>
    ih.step short ok
  refine ⟨?_, h.safe.output.within, h.safe.expect, h.ends.ended⟩
  rw [h.log]
  exact h.safe.output.take_append

/-- Three bytes through a reassembler of two: an empty excerpt inside another, a far byte that is
evicted, a repeat, and the end. -/
theorem session_safe_three :
    let s := [.push [2, 3] 1 true, .push [] 2 false, .push [1, 2] 0 false, .read 2, .push [1, 2] 0 false,
      .push [2, 3] 1 true].foldl step (new 2)
    s.readLog ++ s.reassembler.output.buf = [1, 2, 3].take s.reassembler.output.bytesWritten ∧
      s.reassembler.output.bytesWritten ≤ [1, 2, 3].length ∧
      s.reassembler.expectIdx =
        s.reassembler.output.bytesWritten + s.reassembler.assemBuf.length ∧
      (s.reassembler.output.inputEnded = true →
        s.reassembler.output.bytesWritten = [1, 2, 3].length) :=
  session_safe (S := [1, 2, 3]) (by decide) (Runs.reach_foldl .start (by decide +kernel))

end Session

end Sponge
