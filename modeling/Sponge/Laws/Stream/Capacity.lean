import Sponge.Laws.Stream.Reassembly

/-!
# Laws.Stream.Capacity — how much a reassembler stores, and when eviction runs off the map

The reassembler's bytes live in three places: the output, the assembled buffer that waits for room,
and the map. The later stages of a push only move bytes between them (`pushSubstring_held`), so what
is stored after a push is decided by the merge and by `fixCap`.

Merging never stores a byte twice that was stored once (`storedBytes_mergeAt_le`): a push adds at
most its bytes past the expected index. `fixCap` keeps the assembled buffer and the map within the
capacity, but leaves the output out of the account. So the three together stay within the capacity
when the output is empty or there is room for the new bytes (`Roomy`), and not otherwise.

Its eviction loop stops at an entry exactly when the assembled buffer is below the capacity
(`fixCapLoop_eq_none`). Otherwise the loop erases the first entry and steps back from it.
-/

namespace Sponge

open Word64 (add sub add_eq sub_eq)

namespace StreamReassembler

variable {r : StreamReassembler} {data : Bytes} {index : Nat}

/-! ## Counting the bytes of a map -/

theorem storedBytes_cons (e : Entry) (l : List Entry) :
    storedBytes (e :: l) = e.2.length + storedBytes l := by
  simp [storedBytes]

theorem storedBytes_append (l l' : List Entry) :
    storedBytes (l ++ l') = storedBytes l + storedBytes l' := by
  simp [storedBytes]

theorem storedBytes_perm {l l' : List Entry} (h : l.Perm l') : storedBytes l = storedBytes l' :=
  (h.map _).sum_nat

theorem storedBytes_insert (m : SortedMap Nat Bytes) (k : Nat) (v : Bytes) :
    storedBytes (m.insert k v).entries = v.length + storedBytes (m.erase k).entries := by
  rw [storedBytes_perm (SortedMap.perm_insert m k v), storedBytes_cons]

theorem storedBytes_erase {m : SortedMap Nat Bytes} {e : Entry} (h : e ∈ m.entries) :
    storedBytes m.entries = e.2.length + storedBytes (m.erase e.1).entries := by
  rw [storedBytes_perm (SortedMap.perm_erase h), storedBytes_cons]

theorem storedBytes_erase_le (m : SortedMap Nat Bytes) (k : Nat) :
    storedBytes (m.erase k).entries ≤ storedBytes m.entries := by
  by_cases h : ∃ e ∈ m.entries, e.1 = k
  · obtain ⟨e, he, rfl⟩ := h
    rw [storedBytes_erase he]
    exact Nat.le_add_left _ _
  · have hsame : m.entries.filter (fun e => e.1 ≠ k) = m.entries := by
      apply List.filter_eq_self.mpr
      intro e he
      simpa using fun heq => h ⟨e, he, heq⟩
    exact Nat.le_of_eq (congrArg storedBytes hsame)

/-- A list of entries covers at most as many indices as it holds bytes. -/
theorem card_covered_le (l : List Entry) : (covered l).card ≤ storedBytes l := by
  induction l with
  | nil => simp [covered]
  | cons e l ih =>
    have hunion := Finset.card_union_le (Finset.Ico e.1 (e.1 + e.2.length)) (covered l)
    rw [Nat.card_Ico] at hunion
    rw [covered, storedBytes_cons]
    omega

/-! ## What a merge stores -/

section Merge

variable {buf : SortedMap Nat Bytes} {validIdx : Nat} {validStr : Bytes}

/-- The merged string is no longer than the entries it is painted from. -/
theorem length_mergedStr_le (held : ∀ e ∈ buf.entries, e.1 + e.2.length < 2 ^ 64)
    (mem : (validIdx, validStr) ∈ buf.entries) :
    (mergedStr buf validIdx validStr (validIdx + validStr.length)).length ≤
      storedBytes (mergeRange buf validIdx validStr (validIdx + validStr.length)).2 := by
  have hlen := length_mergedStr held mem
  have hsub : Finset.Ico (leftEnd buf validIdx validStr).1
        (mergeRange buf validIdx validStr (validIdx + validStr.length)).1 ⊆
      covered (mergeRange buf validIdx validStr (validIdx + validStr.length)).2 := by
    intro k hk
    obtain ⟨hlo, hhi⟩ := Finset.mem_Ico.mp hk
    exact mem_covered.mpr (mergeRange_covers held mem hlo hhi)
  have hcard := (Finset.card_le_card hsub).trans (card_covered_le _)
  rw [Nat.card_Ico] at hcard
  omega

/-- The merged map, as a multiset: the merged string, and the entries outside the range. -/
theorem perm_mergeAt (held : ∀ e ∈ buf.entries, e.1 + e.2.length < 2 ^ 64)
    (mem : (validIdx, validStr) ∈ buf.entries) (nonempty : validStr ≠ []) (rb : Nat) :
    (mergeAt buf validIdx validStr rb).entries.Perm
      (((leftEnd buf validIdx validStr).1, mergedStr buf validIdx validStr rb) ::
        buf.entries.filter (· ∉ (mergeRange buf validIdx validStr rb).2)) := by
  have hleft := leftEnd_mem held mem nonempty rb
  apply (List.perm_ext_iff_of_nodup (SortedMap.nodup_entries _) ?_).mpr
  · intro e
    rw [mem_mergeAt_iff held mem nonempty, List.mem_cons, List.mem_filter, decide_eq_true_eq]
  · refine List.nodup_cons.mpr ⟨fun h => ?_, (SortedMap.nodup_entries buf).filter _⟩
    -- the merged string takes the key of an entry of the range, and keys are unique
    obtain ⟨hmem, hout⟩ := List.mem_filter.mp h
    have heq := SortedMap.entry_unique hmem (mem_mergeRange hleft).1 rfl
    rw [heq] at hout
    exact of_decide_eq_true hout hleft

theorem perm_mergeRange (buf : SortedMap Nat Bytes) (validIdx : Nat) (validStr : Bytes) (rb : Nat) :
    buf.entries.Perm ((mergeRange buf validIdx validStr rb).2 ++
      buf.entries.filter (· ∉ (mergeRange buf validIdx validStr rb).2)) := by
  have hnodup : (mergeRange buf validIdx validStr rb).2.Nodup := by
    refine List.Pairwise.imp ?_ (mergeRange_sorted buf validIdx validStr rb)
    intro a b hlt heq
    exact Nat.lt_irrefl _ (heq ▸ hlt)
  apply (List.perm_ext_iff_of_nodup (SortedMap.nodup_entries buf) ?_).mpr
  · intro e
    rw [List.mem_append, List.mem_filter, decide_eq_true_eq]
    constructor
    · intro he
      by_cases hin : e ∈ (mergeRange buf validIdx validStr rb).2
      · exact .inl hin
      · exact .inr ⟨he, hin⟩
    · rintro (hin | ⟨he, -⟩)
      · exact (mem_mergeRange hin).1
      · exact he
  · refine List.nodup_append.mpr ⟨hnodup, (SortedMap.nodup_entries buf).filter _, ?_⟩
    intro a ha b hb heq
    exact of_decide_eq_true (List.mem_filter.mp hb).2 (heq ▸ ha)

/-- **A merge stores no byte twice that was stored once.** -/
theorem storedBytes_mergeAt_le (held : ∀ e ∈ buf.entries, e.1 + e.2.length < 2 ^ 64)
    (mem : (validIdx, validStr) ∈ buf.entries) :
    storedBytes (mergeAt buf validIdx validStr (validIdx + validStr.length)).entries ≤
      storedBytes buf.entries := by
  by_cases hempty : validStr = []
  · subst hempty
    have hshort : ∀ e ∈ buf.entries, e.2.length < 2 ^ 64 := fun e he =>
      Nat.lt_of_le_of_lt (Nat.le_add_left _ _) (held e he)
    exact Nat.le_of_eq (congrArg (storedBytes ·.entries) (mergeAt_nil mem (held _ mem) hshort))
  · have hbuf := storedBytes_perm
      (perm_mergeRange buf validIdx validStr (validIdx + validStr.length))
    rw [storedBytes_append] at hbuf
    rw [storedBytes_perm (perm_mergeAt held mem hempty _), storedBytes_cons, hbuf]
    exact Nat.add_le_add_right (length_mergedStr_le held mem) _

end Merge

/-- Every stored substring ends at a 64-bit index. -/
def InRange (r : StreamReassembler) : Prop := ∀ e ∈ r.unassemBuf.entries, e.1 + e.2.length < 2 ^ 64

/-- What a push adds to the map: at most its bytes past the expected index. -/
theorem pushUnassem_stored (h : r.InRange) (inRange : index + data.length < 2 ^ 64) :
    (r.pushUnassem data index).InRange ∧
      storedBytes (r.pushUnassem data index).unassemBuf.entries ≤
        storedBytes r.unassemBuf.entries + (index + data.length - max index r.expectIdx) := by
  rcases pushUnassem_cases r data index inRange with ⟨heq, -⟩ | ⟨heq, -, -⟩ | ⟨heq, hlt, -⟩
  · rw [heq]
    exact ⟨h, Nat.le_add_right _ _⟩
  · rw [heq]
    exact ⟨h, Nat.le_add_right _ _⟩
  · rw [heq]
    have hlen : (data.drop (r.expectIdx - index)).length = index + data.length - max index r.expectIdx := by
      rw [List.length_drop]
      omega
    generalize hidx : max index r.expectIdx = validIdx at *
    generalize data.drop (r.expectIdx - index) = validStr at *
    have held : ∀ e ∈ (r.unassemBuf.insert validIdx validStr).entries, e.1 + e.2.length < 2 ^ 64 := by
      intro e he
      rcases SortedMap.mem_insert.mp he with rfl | ⟨hmem, -⟩
      · dsimp only
        omega
      · exact h e hmem
    have mem : (validIdx, validStr) ∈ (r.unassemBuf.insert validIdx validStr).entries :=
      SortedMap.mem_insert.mpr (.inl rfl)
    constructor
    · intro e he
      rcases mem_mergeAt he with rfl | hmem
      · dsimp only
        rw [length_mergedStr held mem]
        exact mergeRange_fst_lt held mem
      · exact held e hmem
    · have hmerge := storedBytes_mergeAt_le held mem
      have herase := storedBytes_erase_le r.unassemBuf validIdx
      rw [storedBytes_insert] at hmerge
      dsimp only
      omega

/-! ## What eviction leaves -/

/-- **The eviction loop runs off the entries exactly when they fit into the overflow.** -/
theorem fixCapLoop_eq_none {l : List Entry} {overflow : Nat} {buf : SortedMap Nat Bytes} :
    fixCapLoop l overflow buf = none ↔ storedBytes l ≤ overflow := by
  induction l generalizing overflow buf with
  | nil => simp [fixCapLoop, storedBytes]
  | cons e l ih =>
    rw [fixCapLoop, storedBytes_cons]
    split
    · rw [ih]
      omega
    · simp only [reduceCtorEq, false_iff]
      omega

/-- A loop that stops has taken exactly the overflow off the map. -/
theorem fixCapLoop_stored {l : List Entry} {overflow : Nat} {buf buf' : SortedMap Nat Bytes}
    (sub : ∀ e ∈ l, e ∈ buf.entries) (keys : l.Pairwise (fun a b => b.1 ≠ a.1))
    (h : fixCapLoop l overflow buf = some buf') :
    storedBytes buf'.entries + overflow = storedBytes buf.entries := by
  induction l generalizing overflow buf with
  | nil => cases h
  | cons e l ih =>
    obtain ⟨hne, hkeys⟩ := List.pairwise_cons.mp keys
    rw [storedBytes_erase (sub e List.mem_cons_self)]
    rw [fixCapLoop] at h
    split at h
    next hfits =>
      have hsub : ∀ a ∈ l, a ∈ (buf.erase e.1).entries := by
        intro a ha
        exact SortedMap.mem_erase.mpr ⟨sub a (List.mem_cons_of_mem _ ha), hne a ha⟩
      have hrest := ih hsub hkeys h
      omega
    next hcut =>
      cases h
      rw [storedBytes_insert, List.length_take]
      omega

/-- `fixCap` only shrinks the map. When the assembled buffer is within the capacity, so is it
together with the map. -/
theorem fixCap_stored (r : StreamReassembler) :
    storedBytes r.fixCap.unassemBuf.entries ≤ storedBytes r.unassemBuf.entries ∧
      (r.assemBuf.length ≤ r.capacity →
        r.assemBuf.length + storedBytes r.fixCap.unassemBuf.entries ≤ r.capacity) := by
  unfold fixCap
  split
  next hsize =>
    have hnil : r.unassemBuf.entries = [] := List.length_eq_zero_iff.mp hsize
    simp [hnil, storedBytes]
  · dsimp only
    split
    · omega
    · cases hloop : fixCapLoop r.unassemBuf.entries.reverse
          (r.assemBuf.length + storedBytes r.unassemBuf.entries - r.capacity) r.unassemBuf with
      | none => simp [SortedMap.empty, storedBytes]
      | some buf =>
        have hkeys : r.unassemBuf.entries.reverse.Pairwise (fun a b => b.1 ≠ a.1) := by
          refine List.pairwise_reverse.mpr (List.Pairwise.imp ?_ r.unassemBuf.sorted)
          intro a b hlt
          exact Nat.ne_of_lt hlt
        have hstored := fixCapLoop_stored (by simp) hkeys hloop
        simp only [Option.getD_some]
        omega

theorem fixCap_inRange (h : r.InRange) : r.fixCap.InRange := by
  intro e he
  rcases mem_fixCap he with hmem | ⟨a, ha, n, rfl⟩
  · exact h e hmem
  · have := h a ha
    simp only [List.length_take]
    omega

/-! ## What the later stages move -/

/-- The bytes the reassembler holds: unread, waiting for room, and unassembled. -/
def held (r : StreamReassembler) : Nat :=
  r.output.bufferSize + r.assemBuf.length + storedBytes r.unassemBuf.entries

/-- The assembly loop moves bytes from the map to the assembled buffer. -/
theorem assemLoop_stored {l : List Entry} (hl : r.unassemBuf.entries = l) :
    (assemLoop r l).assemBuf.length + storedBytes (assemLoop r l).unassemBuf.entries =
        r.assemBuf.length + storedBytes r.unassemBuf.entries ∧
      ∀ e ∈ (assemLoop r l).unassemBuf.entries, e ∈ r.unassemBuf.entries := by
  induction l generalizing r with
  | nil => exact ⟨rfl, fun _ he => he⟩
  | cons e l ih =>
    rw [assemLoop]
    split
    next =>
      obtain ⟨hsum, hmem⟩ := ih (r := { r with
        assemBuf := r.assemBuf ++ e.2
        expectIdx := r.expectIdx + e.2.length
        unassemBuf := r.unassemBuf.erase e.1 }) (SortedMap.entries_erase_head hl)
      have he : e ∈ r.unassemBuf.entries := by simp [hl]
      refine ⟨?_, fun a ha => (SortedMap.mem_erase.mp (hmem a ha)).1⟩
      rw [hsum, storedBytes_erase he]
      simp only [List.length_append]
      omega
    next => exact ⟨rfl, fun _ he => he⟩

/-- Writing moves bytes from the assembled buffer to the output. -/
theorem writeStr_held (r : StreamReassembler) : r.writeStr.held = r.held := by
  have hle := r.output.write_snd_le r.assemBuf
  simp only [held, writeStr, ByteStream.bufferSize, ByteStream.write_buf_take, List.length_append,
    List.length_take, List.length_drop]
  omega

theorem endOutput_held (r : StreamReassembler) : r.endOutput.held = r.held := by
  rw [endOutput_frame]
  rfl

/-- The state in which a push reaches `fixCap`. -/
def beforeFixCap (r : StreamReassembler) (data : Bytes) (index : Nat) (eof : Bool) :
    StreamReassembler :=
  (if eof then { r with eofIndex := add index data.length } else r).pushUnassem data index

theorem pushSubstring_eq_fixCap (r : StreamReassembler) (data : Bytes) (index : Nat) (eof : Bool) :
    r.pushSubstring data index eof =
      (r.beforeFixCap data index eof).fixCap.assem.writeStr.endOutput :=
  rfl

/-- Noting the end index leaves alone what the stages behind it read. -/
theorem noted_frame (r : StreamReassembler) (n : Nat) (eof : Bool) :
    let noted := if eof then { r with eofIndex := n } else r
    noted.output = r.output ∧ noted.capacity = r.capacity ∧ noted.unassemBuf = r.unassemBuf ∧
      noted.assemBuf = r.assemBuf ∧ noted.expectIdx = r.expectIdx := by
  rw [noted_eq]
  exact ⟨rfl, rfl, rfl, rfl, rfl⟩

/-- The assembled buffer is as before when `fixCap` is reached. -/
theorem beforeFixCap_frame (r : StreamReassembler) (data : Bytes) (index : Nat) (eof : Bool) :
    let before := r.beforeFixCap data index eof
    before.output = r.output ∧ before.capacity = r.capacity ∧ before.assemBuf = r.assemBuf := by
  obtain ⟨houtput, hcap, -, hassem, -⟩ := noted_frame r (add index data.length) eof
  rw [beforeFixCap, pushUnassem_frame]
  exact ⟨houtput, hcap, hassem⟩

theorem beforeFixCap_stored (h : r.InRange) (inRange : index + data.length < 2 ^ 64) (eof : Bool) :
    (r.beforeFixCap data index eof).InRange ∧
      storedBytes (r.beforeFixCap data index eof).unassemBuf.entries ≤
        storedBytes r.unassemBuf.entries + (index + data.length - max index r.expectIdx) := by
  obtain ⟨-, -, hbuf, -, hexpect⟩ := noted_frame r (add index data.length) eof
  have hstored := pushUnassem_stored (r := if eof then { r with eofIndex := add index data.length } else r)
    (by rw [InRange, hbuf]; exact h) inRange
  rwa [hbuf, hexpect] at hstored

/-- **The stages behind `fixCap` hold on to every byte.** -/
theorem pushSubstring_held (r : StreamReassembler) (data : Bytes) (index : Nat) (eof : Bool) :
    (r.pushSubstring data index eof).held =
      r.output.bufferSize + r.assemBuf.length +
        storedBytes (r.beforeFixCap data index eof).fixCap.unassemBuf.entries := by
  obtain ⟨houtput, -, hassem⟩ := beforeFixCap_frame r data index eof
  rw [pushSubstring_eq_fixCap, endOutput_held, writeStr_held, ← houtput, ← hassem]
  generalize r.beforeFixCap data index eof = before
  have hframe := fixCap_frame before
  have hassemble := (assemLoop_stored (r := before.fixCap) rfl).1
  have houtput := (assem_sameFrame before.fixCap).1
  have hassem : before.fixCap.assemBuf = before.assemBuf := by rw [hframe]
  have hsame : before.fixCap.output = before.output := by rw [hframe]
  rw [held, houtput, hsame, ← hassem]
  show _ + (assemLoop before.fixCap before.fixCap.unassemBuf.entries).assemBuf.length +
    storedBytes (assemLoop before.fixCap before.fixCap.unassemBuf.entries).unassemBuf.entries = _
  omega

/-! ## The bound on what is stored -/

/-- What every push keeps: stored substrings end at 64-bit indices, the assembled buffer and the map
are within the capacity, and the counter of unassembled bytes is right. -/
structure Bounded (capacity : Nat) (r : StreamReassembler) : Prop where
  cap : r.capacity = capacity
  inRange : r.InRange
  within : r.assemBuf.length + storedBytes r.unassemBuf.entries ≤ capacity
  counted : r.unassemSize = storedBytes r.unassemBuf.entries

theorem bounded_new (capacity : Nat) : Bounded capacity (new capacity) where
  cap := rfl
  inRange := fun _ h => by cases h
  within := by simp [new, SortedMap.empty, storedBytes]
  counted := rfl

variable {capacity : Nat}

theorem Bounded.popOutput (h : Bounded capacity r) (len : Nat) : Bounded capacity (r.popOutput len) :=
  ⟨h.cap, h.inRange, h.within, h.counted⟩

/-- What `assem` leaves in the map was there, and is counted. -/
theorem assem_stored (r : StreamReassembler) :
    r.assem.assemBuf.length + storedBytes r.assem.unassemBuf.entries =
        r.assemBuf.length + storedBytes r.unassemBuf.entries ∧
      (∀ e ∈ r.assem.unassemBuf.entries, e ∈ r.unassemBuf.entries) ∧
      r.assem.unassemSize = storedBytes r.assem.unassemBuf.entries := by
  obtain ⟨hsum, hmem⟩ := assemLoop_stored (r := r) rfl
  exact ⟨hsum, hmem, rfl⟩

/-- The stages behind the merge restore the bound, whatever was merged. -/
theorem stages_bounded (inRange : r.InRange) (cap : r.capacity = capacity)
    (fits : r.assemBuf.length ≤ capacity) :
    Bounded capacity r.fixCap.assem.writeStr.endOutput := by
  obtain ⟨hsum, hmem, hcount⟩ := assem_stored r.fixCap
  have hframe := fixCap_frame r
  have hfix : r.fixCap.assemBuf = r.assemBuf := by rw [hframe]
  have hcap : r.fixCap.assem.capacity = capacity := by
    rw [(assem_sameFrame r.fixCap).2.1, hframe, ← cap]
  have hwithin := (fixCap_stored r).2 (cap ▸ fits)
  rw [hfix] at hsum
  rw [endOutput_frame]
  refine ⟨hcap, fun e he => fixCap_inRange inRange e (hmem e he), ?_, hcount⟩
  show (r.fixCap.assem.assemBuf.drop _).length + storedBytes r.fixCap.assem.unassemBuf.entries ≤ capacity
  rw [List.length_drop]
  omega

theorem Bounded.push (h : Bounded capacity r) (inRange : index + data.length < 2 ^ 64) (eof : Bool) :
    Bounded capacity (r.pushSubstring data index eof) := by
  obtain ⟨-, hcap, hassem⟩ := beforeFixCap_frame r data index eof
  have hfits := h.within
  rw [pushSubstring_eq_fixCap]
  refine stages_bounded (beforeFixCap_stored h.inRange inRange eof).1 (hcap.trans h.cap) ?_
  rw [hassem]
  omega

/-- **What a push holds afterwards**: within the capacity when the output was empty, or when there was
room for the new bytes. -/
theorem Bounded.push_held_le (h : Bounded capacity r) (inRange : index + data.length < 2 ^ 64)
    (eof : Bool)
    (room : r.output.bufferSize = 0 ∨
      r.held + (index + data.length - max index r.expectIdx) ≤ capacity) :
    (r.pushSubstring data index eof).held ≤ capacity := by
  obtain ⟨-, hcap, hassem⟩ := beforeFixCap_frame r data index eof
  obtain ⟨hless, hwithin⟩ := fixCap_stored (r.beforeFixCap data index eof)
  have hadded := (beforeFixCap_stored h.inRange inRange eof).2
  have hfits := h.within
  rw [hassem, hcap, h.cap] at hwithin
  rw [pushSubstring_held]
  rcases room with hempty | hroom
  · have := hwithin (by omega)
    omega
  · rw [held] at hroom
    omega

/-! ## When eviction stays inside the map -/

/-- The eviction loop of `fixCap`, if it is entered, stops at an entry of the map. -/
def StopsInside (r : StreamReassembler) : Prop :=
  r.unassemBuf.size ≠ 0 →
    ¬ r.assemBuf.length + storedBytes r.unassemBuf.entries < r.capacity →
      (fixCapLoop r.unassemBuf.entries.reverse
        (r.assemBuf.length + storedBytes r.unassemBuf.entries - r.capacity) r.unassemBuf).isSome

instance (r : StreamReassembler) : Decidable r.StopsInside :=
  inferInstanceAs (Decidable (_ → _ → _))

theorem stopsInside_iff (r : StreamReassembler) :
    r.StopsInside ↔ r.assemBuf.length < r.capacity ∨ r.unassemBuf.size = 0 := by
  have hloop : (fixCapLoop r.unassemBuf.entries.reverse
        (r.assemBuf.length + storedBytes r.unassemBuf.entries - r.capacity) r.unassemBuf).isSome ↔
      ¬ storedBytes r.unassemBuf.entries ≤
        r.assemBuf.length + storedBytes r.unassemBuf.entries - r.capacity := by
    rw [Option.isSome_iff_ne_none, Ne, fixCapLoop_eq_none,
      storedBytes_perm r.unassemBuf.entries.reverse_perm]
  rw [StopsInside, hloop]
  omega

/-- A merge leaves the entry at `iterL` in the map. -/
theorem mergeAt_size (buf : SortedMap Nat Bytes) (validIdx : Nat) (validStr : Bytes) (rb : Nat) :
    (mergeAt buf validIdx validStr rb).size ≠ 0 := by
  have hmem : ((leftEnd buf validIdx validStr).1, mergedStr buf validIdx validStr rb) ∈
      (mergeAt buf validIdx validStr rb).entries := by
    refine mem_foldl_erase.mpr ⟨SortedMap.mem_insert.mpr (.inl rfl), ?_⟩
    -- the range runs in key order from `iterL` on, so what comes after its head lies past `iterL`
    have hsorted := mergeRange_sorted buf validIdx validStr rb
    have hge : ∀ e ∈ (mergeRange buf validIdx validStr rb).2, _ ≤ e.1 := fun _ he =>
      (mem_mergeRange he).2
    intro p hp heq
    cases hrange : (mergeRange buf validIdx validStr rb).2 with
    | nil => rw [hrange] at hp; cases hp
    | cons head tail =>
      rw [hrange] at hp hsorted hge
      have hlt := (List.pairwise_cons.mp hsorted).1 p hp
      have hhead := hge head List.mem_cons_self
      dsimp only at heq
      omega
  intro hzero
  rw [List.length_eq_zero_iff.mp hzero] at hmem
  cases hmem

/-- The map is empty behind the merge exactly when it was empty and the substring is assembled
already, its end taken in 64 bits. -/
theorem pushUnassem_size (r : StreamReassembler) (data : Bytes) (index : Nat) :
    (r.pushUnassem data index).unassemBuf.size = 0 ↔
      r.unassemBuf.size = 0 ∧ add index data.length ≤ r.expectIdx := by
  unfold pushUnassem
  dsimp only
  split
  next hdone => simp [hdone]
  next hpast =>
    simp only [hpast, and_false, iff_false]
    generalize (if index < r.expectIdx then r.expectIdx else index) = validIdx
    generalize (if index < r.expectIdx then data.drop (r.expectIdx - index) else data) = validStr
    split
    · exact mergeAt_size _ _ _ _
    next old hfind =>
      split
      · intro hzero
        have hmem := SortedMap.find?_eq_some.mp hfind
        rw [List.length_eq_zero_iff.mp hzero] at hmem
        cases hmem
      · exact mergeAt_size _ _ _ _

/-- **Eviction stays inside the map exactly when** the assembled buffer is below the capacity, or the
map is empty and the push adds nothing to it. -/
theorem push_stopsInside_iff (r : StreamReassembler) (data : Bytes) (index : Nat) (eof : Bool) :
    (r.beforeFixCap data index eof).StopsInside ↔
      r.assemBuf.length < r.capacity ∨
        r.unassemBuf.size = 0 ∧ add index data.length ≤ r.expectIdx := by
  obtain ⟨-, hcap, hassem⟩ := beforeFixCap_frame r data index eof
  obtain ⟨-, -, hbuf, -, hexpect⟩ := noted_frame r (add index data.length) eof
  rw [stopsInside_iff, hcap, hassem, beforeFixCap, pushUnassem_size, hbuf, hexpect]

end StreamReassembler

namespace Session

variable {s : Session}

/-- A substring may be pushed at any index, as long as its end is a 64-bit index. -/
def Pushable (_ : Session) : Op → Prop
  | .push data index _ => index + data.length < 2 ^ 64
  | .pop _ | .read _ => True

instance (s : Session) : (op : Op) → Decidable (Pushable s op)
  | .push _ _ _ => inferInstanceAs (Decidable (_ < _))
  | .pop _ => inferInstanceAs (Decidable True)
  | .read _ => inferInstanceAs (Decidable True)

/-- The output is empty when a substring is pushed, or its bytes past the expected index fit beside
everything held. -/
def Roomy (s : Session) : Op → Prop
  | .push data index _ =>
    s.reassembler.output.bufferSize = 0 ∨
      s.reassembler.output.bufferSize + s.reassembler.assemBuf.length +
        s.reassembler.unassembledBytes +
          (index + data.length - max index s.reassembler.expectIdx) ≤ s.reassembler.capacity
  | .pop _ | .read _ => True

instance (s : Session) : (op : Op) → Decidable (Roomy s op)
  | .push _ _ _ => inferInstanceAs (Decidable (_ ∨ _))
  | .pop _ => inferInstanceAs (Decidable True)
  | .read _ => inferInstanceAs (Decidable True)

/-- The eviction loop of a push stays inside the map: the assembled buffer is below the capacity, or the
map is empty and the substring is assembled already. -/
def EvictsInside (s : Session) : Op → Prop
  | .push data index _ =>
    s.reassembler.assemBuf.length < s.reassembler.capacity ∨
      s.reassembler.unassemBuf.size = 0 ∧ add index data.length ≤ s.reassembler.expectIdx
  | .pop _ | .read _ => True

instance (s : Session) : (op : Op) → Decidable (EvictsInside s op)
  | .push _ _ _ => inferInstanceAs (Decidable (_ ∨ _))
  | .pop _ => inferInstanceAs (Decidable True)
  | .read _ => inferInstanceAs (Decidable True)

/-- The reassembler is bounded, and so is everything it holds. -/
structure Fits (capacity : Nat) (s : Session) : Prop where
  bounded : StreamReassembler.Bounded capacity s.reassembler
  held : s.reassembler.held ≤ capacity

variable {capacity : Nat}

theorem fits_new (capacity : Nat) : Fits capacity (new capacity) where
  bounded := StreamReassembler.bounded_new capacity
  held := Nat.zero_le _

theorem Fits.pop (h : Fits capacity s) (len : Nat) : Fits capacity (s.step (.pop len)) := by
  refine ⟨h.bounded.popOutput len, ?_⟩
  have hheld := h.held
  have hdrop : ((s.reassembler.output.popOutput len).buf).length ≤ s.reassembler.output.buf.length := by
    rw [ByteStream.popOutput_buf, List.length_drop]
    exact Nat.sub_le _ _
  simp only [StreamReassembler.held, step, StreamReassembler.popOutput, ByteStream.bufferSize] at hheld ⊢
  omega

theorem Fits.push (h : Fits capacity s) {data : Bytes} {index : Nat} {eof : Bool}
    (ok : Pushable s (.push data index eof)) (room : Roomy s (.push data index eof)) :
    Fits capacity (s.step (.push data index eof)) := by
  have hbounded := h.bounded.push ok eof
  have hheld := h.bounded.push_held_le ok eof (by
    rw [Roomy, StreamReassembler.unassembledBytes, h.bounded.counted, h.bounded.cap] at room
    exact room)
  rw [step]
  generalize s.reassembler.pushSubstring data index eof = pushed at *
  exact ⟨hbounded, hheld⟩

theorem Fits.step (h : Fits capacity s) {op : Op} (ok : Pushable s op) (room : Roomy s op) :
    Fits capacity (s.step op) := by
  cases op with
  | push data index eof => exact h.push ok room
  | pop len => exact h.pop len
  | read len =>
    rw [step_read]
    exact h.pop len

/-- **The memory bound.** In every run whose pushes find an empty output or room for their new bytes, and
whose evictions stay inside the map, the bytes unread, waiting and unassembled are together within the
capacity. -/
theorem session_fits
    (run : Runs.Reach step (fun s op => Pushable s op ∧ EvictsInside s op ∧ Roomy s op) (new capacity) s) :
    s.reassembler.output.bufferSize + s.reassembler.assemBuf.length +
      s.reassembler.unassembledBytes ≤ capacity := by
  have h : Fits capacity s :=
    run.invariant (Fits capacity) (fits_new capacity) fun _ _ ih ok => ih.step ok.1 ok.2.2
  have hheld := h.held
  rwa [StreamReassembler.held, ← h.bounded.counted] at hheld

/-- Bytes at both ends of a capacity of four, an overlap, and reads. -/
theorem session_fits_four :
    let s := [.push [1, 2] 0 false, .push [4] 3 false, .read 1, .push [3, 4] 2 true].foldl step (new 4)
    s.reassembler.output.bufferSize + s.reassembler.assemBuf.length +
      s.reassembler.unassembledBytes ≤ 4 :=
  session_fits (Runs.reach_foldl .start (by decide +kernel))

/-- **Unread output is not counted.** Two bytes fill the output of a reassembler of two, and two more
are stored beside them, with no eviction. -/
theorem session_overfull :
    let s := [.push [1, 2] 0 false, .push [4, 5] 3 false].foldl step (new 2)
    Runs.Reach step (fun s op => Pushable s op ∧ EvictsInside s op) (new 2) s ∧
      s.reassembler.output.bufferSize + s.reassembler.assemBuf.length +
        s.reassembler.unassembledBytes = 4 :=
  ⟨Runs.reach_foldl .start (by decide +kernel), by decide +kernel⟩

/-- **Eviction can run off the map.** With the output full and two bytes waiting for room, one more
byte is larger than the room there is for it, and the loop steps back from the only entry. -/
theorem eviction_runs_off :
    let s := [.push [1, 2] 0 false, .push [3, 4] 2 false].foldl step (new 2)
    Runs.Reach step (fun _ _ => True) (new 2) s ∧
      ¬ (s.reassembler.beforeFixCap [5] 4 false).StopsInside :=
  ⟨Runs.reach_foldl .start (by decide +kernel), by decide +kernel⟩

end Session

end Sponge
