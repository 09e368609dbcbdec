import Sponge.Laws.Stream.Capacity

/-!
# Laws.Stream.Rest — a reassembler at rest, and an empty push

Behind every push, of whatever bytes at whatever index, the reassembler is at rest (`Rested`): another
run of `fixCap`, `assem` and the last stage would change nothing. Only `writeStr` may find something to
do, once the reader has made room for bytes that wait (`Flushed` says that it does not).

So a push of the empty string, which merges into nothing (`pushUnassem_nil`), leaves a reassembler at
rest as it was, but for the map: it may store an empty substring there, and `fixCap` may evict empty
substrings from its end. `nonempties` is the map without them, and it is what an empty push keeps
(`Rested.push_nil`). What the empty substrings do to later pushes is another matter.
-/

namespace Sponge

open Word64 (add sub add_eq sub_eq)

namespace StreamReassembler

variable {r : StreamReassembler}

/-! ## The substrings that are not empty -/

/-- The map without its empty substrings. -/
def nonempties (buf : SortedMap Nat Bytes) : SortedMap Nat Bytes := buf.filter fun e => !e.2.isEmpty

theorem mem_nonempties {buf : SortedMap Nat Bytes} {e : Entry} :
    e ∈ (nonempties buf).entries ↔ e ∈ buf.entries ∧ e.2 ≠ [] := by
  rw [nonempties, SortedMap.mem_filter, Bool.not_eq_true', List.isEmpty_eq_false_iff]

theorem nonempties_erase (buf : SortedMap Nat Bytes) (k : Nat) :
    nonempties (buf.erase k) = (nonempties buf).erase k := by
  apply SortedMap.ext_mem
  intro e
  rw [mem_nonempties, SortedMap.mem_erase, SortedMap.mem_erase, mem_nonempties, and_right_comm]

theorem nonempties_insert (buf : SortedMap Nat Bytes) (k : Nat) {v : Bytes} (nonempty : v ≠ []) :
    nonempties (buf.insert k v) = (nonempties buf).insert k v := by
  apply SortedMap.ext_mem
  intro e
  rw [mem_nonempties, SortedMap.mem_insert, SortedMap.mem_insert, mem_nonempties]
  constructor
  · rintro ⟨rfl | ⟨hmem, hne⟩, hfull⟩
    · exact .inl rfl
    · exact .inr ⟨⟨hmem, hfull⟩, hne⟩
  · rintro (rfl | ⟨⟨hmem, hfull⟩, hne⟩)
    · exact ⟨.inl rfl, nonempty⟩
    · exact ⟨.inr ⟨hmem, hne⟩, hfull⟩

/-- The key of an empty substring is free among the others. -/
theorem nonempties_erase_empty {buf : SortedMap Nat Bytes} {e : Entry} (he : e ∈ buf.entries)
    (empty : e.2 = []) : nonempties (buf.erase e.1) = nonempties buf := by
  apply SortedMap.ext_mem
  intro a
  rw [mem_nonempties, SortedMap.mem_erase, mem_nonempties]
  constructor
  · exact fun ⟨⟨hmem, _⟩, hfull⟩ => ⟨hmem, hfull⟩
  · refine fun ⟨hmem, hfull⟩ => ⟨⟨hmem, fun hkey => hfull ?_⟩, hfull⟩
    rw [SortedMap.entry_unique hmem he hkey, empty]

/-- Storing an empty substring at a free key. -/
theorem nonempties_insert_nil {buf : SortedMap Nat Bytes} {k : Nat} (free : buf.find? k = none) :
    nonempties (buf.insert k []) = nonempties buf := by
  apply SortedMap.ext_mem
  intro e
  rw [mem_nonempties, SortedMap.mem_insert, mem_nonempties]
  constructor
  · rintro ⟨rfl | ⟨hmem, -⟩, hfull⟩
    · exact absurd rfl hfull
    · exact ⟨hmem, hfull⟩
  · exact fun ⟨hmem, hfull⟩ => ⟨.inr ⟨hmem, SortedMap.find?_eq_none.mp free e hmem⟩, hfull⟩

theorem storedBytes_filter (l : List Entry) :
    storedBytes (l.filter fun e => !e.2.isEmpty) = storedBytes l := by
  induction l with
  | nil => rfl
  | cons e l ih =>
    obtain ⟨k, v⟩ := e
    cases v with
    | nil => rw [List.filter_cons_of_neg (by simp), ih, storedBytes_cons, List.length_nil, Nat.zero_add]
    | cons c v => rw [List.filter_cons_of_pos (by simp), storedBytes_cons, ih, storedBytes_cons]

/-- The reassembler without the empty substrings of its map. -/
def bare (r : StreamReassembler) : StreamReassembler := { r with unassemBuf := nonempties r.unassemBuf }

/-- Eviction does not see empty substrings: they make no room. -/
theorem fixCapLoop_nonempties {l : List Entry} {overflow : Nat} {buf : SortedMap Nat Bytes}
    (hl : buf.entries = l.reverse) :
    (fixCapLoop l overflow buf).map nonempties =
      fixCapLoop (l.filter fun e => !e.2.isEmpty) overflow (nonempties buf) := by
  induction l generalizing overflow buf with
  | nil => rfl
  | cons e l ih =>
    rw [List.reverse_cons] at hl
    have hrest := SortedMap.entries_erase_last hl
    by_cases hempty : e.2 = []
    · have hmem : e ∈ buf.entries := by
        rw [hl]
        exact List.mem_append_right _ List.mem_cons_self
      rw [fixCapLoop, if_pos (by rw [hempty]; exact Nat.zero_le _), ih hrest,
        nonempties_erase_empty hmem hempty, List.filter_cons_of_neg (by simp [hempty]), hempty,
        List.length_nil, Nat.sub_zero]
    · rw [List.filter_cons_of_pos (by simp [hempty]), fixCapLoop, fixCapLoop]
      split
      · rw [ih hrest, nonempties_erase]
      · have hcut : e.2.take (e.2.length - overflow) ≠ [] := by
          apply List.length_pos_iff.mp
          rw [List.length_take]
          omega
        rw [Option.map_some, nonempties_insert _ _ hcut]

/-- Without room `fixCap` is its loop, also on an empty map. -/
theorem fixCap_of_full (full : ¬r.assemBuf.length + storedBytes r.unassemBuf.entries < r.capacity) :
    r.fixCap = { r with
      unassemBuf := (fixCapLoop r.unassemBuf.entries.reverse
        (r.assemBuf.length + storedBytes r.unassemBuf.entries - r.capacity)
        r.unassemBuf).getD SortedMap.empty } := by
  unfold fixCap
  split
  next hsize =>
    have hnil : r.unassemBuf.entries = [] := List.length_eq_zero_iff.mp hsize
    have hempty : r.unassemBuf = SortedMap.empty := SortedMap.ext hnil
    conv_lhs => rw [← show { r with unassemBuf := SortedMap.empty } = r by rw [← hempty]]
    rw [hnil]
    rfl
  · dsimp only
    rw [if_neg full]

/-- **Eviction commutes with forgetting the empty substrings.** -/
theorem bare_fixCap (r : StreamReassembler) : r.fixCap.bare = r.bare.fixCap := by
  have hstored : storedBytes (nonempties r.unassemBuf).entries = storedBytes r.unassemBuf.entries :=
    storedBytes_filter _
  by_cases hroom : r.assemBuf.length + storedBytes r.unassemBuf.entries < r.capacity
  · have hbare : r.bare.Trimmed := .inr (.inl (by rw [bare, hstored]; exact hroom))
    rw [hbare.fixCap_eq, Trimmed.fixCap_eq (.inr (.inl hroom))]
  · have hloop : (fixCapLoop r.unassemBuf.entries.reverse
        (r.assemBuf.length + storedBytes r.unassemBuf.entries - r.capacity) r.unassemBuf).map nonempties =
        fixCapLoop (nonempties r.unassemBuf).entries.reverse
          (r.assemBuf.length + storedBytes r.unassemBuf.entries - r.capacity)
          (nonempties r.unassemBuf) := by
      rw [fixCapLoop_nonempties (List.reverse_reverse _).symm, List.filter_reverse]
      rfl
    rw [fixCap_of_full hroom, fixCap_of_full (by rw [bare, hstored]; exact hroom)]
    unfold bare
    dsimp only
    rw [hstored, ← hloop]
    congr 1
    generalize fixCapLoop _ _ _ = trimmed
    cases trimmed with
    | none => rfl
    | some buf => rfl

/-! ## What eviction and assembly leave -/

/-- An eviction loop that stops keeps the front of the map, and a nonempty part of the entry it stops
at. -/
theorem fixCapLoop_some {l : List Entry} {overflow : Nat} {buf buf' : SortedMap Nat Bytes}
    (hl : buf.entries = l.reverse) (h : fixCapLoop l overflow buf = some buf') :
    ∃ front last n, buf'.entries = front ++ [(last.1, last.2.take n)] ∧ last.2.take n ≠ [] ∧
      front ++ [last] <+: buf.entries := by
  induction l generalizing overflow buf with
  | nil => cases h
  | cons e l ih =>
    rw [List.reverse_cons] at hl
    rw [fixCapLoop] at h
    split at h
    next =>
      have hrest := SortedMap.entries_erase_last hl
      obtain ⟨front, last, n, hkept, hne, hfront⟩ := ih hrest h
      rw [hrest] at hfront
      exact ⟨front, last, n, hkept, hne, hfront.trans (hl ▸ List.prefix_append _ _)⟩
    next hcut =>
      cases h
      refine ⟨l.reverse, e, _, SortedMap.entries_insert_last hl _, ?_, by rw [hl]⟩
      apply List.length_pos_iff.mp
      rw [List.length_take]
      omega

/-- What `fixCap` leaves: a map that is trimmed, and whose first key stands where it stood. -/
theorem fixCap_trimmed (r : StreamReassembler) :
    r.fixCap.Trimmed ∧
      ∀ e ∈ r.fixCap.unassemBuf.entries.head?, ∃ a ∈ r.unassemBuf.entries.head?, a.1 = e.1 := by
  by_cases hroom : r.assemBuf.length + storedBytes r.unassemBuf.entries < r.capacity
  · rw [Trimmed.fixCap_eq (.inr (.inl hroom))]
    exact ⟨.inr (.inl hroom), fun e he => ⟨e, he, rfl⟩⟩
  · rw [fixCap_of_full hroom]
    cases hloop : fixCapLoop r.unassemBuf.entries.reverse
        (r.assemBuf.length + storedBytes r.unassemBuf.entries - r.capacity) r.unassemBuf with
    | none => exact ⟨.inl rfl, fun e he => by cases he⟩
    | some buf =>
      have hkeys : r.unassemBuf.entries.reverse.Pairwise (fun a b => b.1 ≠ a.1) := by
        refine List.pairwise_reverse.mpr (List.Pairwise.imp ?_ r.unassemBuf.sorted)
        exact fun hlt => Nat.ne_of_lt hlt
      have hstored := fixCapLoop_stored (by simp) hkeys hloop
      obtain ⟨front, last, n, hkept, hne, hfront⟩ := fixCapLoop_some (List.reverse_reverse _).symm hloop
      constructor
      · refine .inr (.inr ⟨?_, front, _, hkept, hne⟩)
        dsimp only [Option.getD_some]
        omega
      · obtain ⟨rest, hrest⟩ := hfront
        rw [Option.getD_some, hkept, ← hrest]
        cases front with
        | nil => exact fun e he => ⟨last, rfl, by cases he; rfl⟩
        | cons a front => exact fun e he => ⟨a, rfl, by cases he; rfl⟩

/-- The assembly loop takes entries off the front, and stops before one that starts elsewhere. -/
theorem assemLoop_suffix {l : List Entry} (hl : r.unassemBuf.entries = l) :
    (assemLoop r l).unassemBuf.entries <:+ l ∧
      ∀ e ∈ (assemLoop r l).unassemBuf.entries.head?, e.1 ≠ (assemLoop r l).expectIdx := by
  induction l generalizing r with
  | nil =>
    rw [assemLoop, hl]
    exact ⟨List.suffix_refl _, fun e he => by cases he⟩
  | cons a l ih =>
    rw [assemLoop]
    split
    next =>
      obtain ⟨hsuffix, hgap⟩ := ih (r := { r with
        assemBuf := r.assemBuf ++ a.2
        expectIdx := r.expectIdx + a.2.length
        unassemBuf := r.unassemBuf.erase a.1 }) (SortedMap.entries_erase_head hl)
      exact ⟨hsuffix.trans (List.suffix_cons a l), hgap⟩
    next hgap =>
      rw [hl]
      exact ⟨List.suffix_refl _, fun e he => by cases he; exact hgap⟩

theorem Trimmed.assem (h : r.Trimmed) : r.assem.Trimmed := by
  obtain ⟨hsum, -, -⟩ := assem_stored r
  have hcap := (assem_sameFrame r).2.1
  have hsuffix : r.assem.unassemBuf.entries <:+ r.unassemBuf.entries := (assemLoop_suffix rfl).1
  unfold Trimmed at h ⊢
  rw [hsum, hcap]
  rcases h with hnone | hroom | ⟨hfits, front, last, hlast, hne⟩
  · exact .inl (List.suffix_nil.mp (hnone ▸ hsuffix))
  · exact .inr (.inl hroom)
  · rcases List.eq_nil_or_concat r.assem.unassemBuf.entries with hnone | ⟨front', last', hlast'⟩
    · exact .inl hnone
    · rw [List.concat_eq_append] at hlast'
      refine .inr (.inr ⟨hfits, front', last', hlast', ?_⟩)
      rw [hlast, hlast'] at hsuffix
      obtain ⟨used, hused⟩ := hsuffix
      rw [← List.append_assoc] at hused
      rw [(List.append_inj' hused rfl).2 |> List.singleton_inj.mp]
      exact hne

/-! ## At rest -/

/-- Nothing waits that the output would take. -/
def Flushed (r : StreamReassembler) : Prop :=
  r.assemBuf = [] ∨ r.output.isEnd = true ∨ r.output.buf.length = r.output.cap

instance (r : StreamReassembler) : Decidable r.Flushed := inferInstanceAs (Decidable (_ ∨ _))

theorem Flushed.writeStr_eq (h : r.Flushed) : r.writeStr = r := by
  have hnone : r.output.write r.assemBuf = (r.output, 0) := by
    rcases h with hnil | hend | hfull
    · exact ByteStream.write_of_full _ (.inl hnil)
    · exact ByteStream.write_of_end _ hend _
    · exact ByteStream.write_of_full _ (.inr hfull)
  unfold writeStr
  rw [hnone, List.drop_zero]

/-- The reassembler between two calls: nothing to evict, a gap before the first stored substring, the
bytes counted, and an output that has ended if everything up to the end index is written. -/
structure Rested (r : StreamReassembler) : Prop where
  trimmed : r.Trimmed
  gap : ∀ e ∈ r.unassemBuf.entries.head?, e.1 ≠ r.expectIdx
  counted : r.unassemSize = storedBytes r.unassemBuf.entries
  ended : r.assemBuf.length = 0 → r.expectIdx = r.eofIndex → r.output.isEnd = true

theorem rested_new (capacity : Nat) : (new capacity).Rested where
  trimmed := .inl rfl
  gap := fun e he => by cases he
  counted := rfl
  ended := fun _ hmeet => absurd hmeet (show ¬0 = 2 ^ 64 - 1 by decide)

/-- What the reader does, and that the output ends, does not disturb the rest. -/
theorem Rested.setOutput (h : r.Rested) {output : ByteStream}
    (ended : r.output.isEnd = true → output.isEnd = true) : { r with output }.Rested :=
  ⟨h.trimmed, h.gap, h.counted, fun hnone hmeet => ended (h.ended hnone hmeet)⟩

theorem Rested.popOutput (h : r.Rested) (len : Nat) : (r.popOutput len).Rested :=
  h.setOutput id

/-- **The stages behind the merge leave the reassembler at rest**, whatever was merged. -/
theorem rested_stages (r : StreamReassembler) : r.fixCap.assem.writeStr.endOutput.Rested := by
  have htrimmed := (fixCap_trimmed r).1.assem
  have hgap : ∀ e ∈ r.fixCap.assem.unassemBuf.entries.head?, e.1 ≠ r.fixCap.assem.expectIdx :=
    (assemLoop_suffix rfl).2
  have hcounted := (assem_stored r.fixCap).2.2
  generalize r.fixCap.assem = x at *
  have hless : x.writeStr.assemBuf.length ≤ x.assemBuf.length := by
    rw [writeStr, List.length_drop]
    exact Nat.sub_le _ _
  have hwritten : x.writeStr.Trimmed := by
    rcases htrimmed with hnone | hroom | ⟨hfits, hlast⟩
    · exact .inl hnone
    · exact .inr (.inl (Nat.lt_of_le_of_lt (Nat.add_le_add_right hless _) hroom))
    · exact .inr (.inr ⟨Nat.le_trans (Nat.add_le_add_right hless _) hfits, hlast⟩)
  refine ⟨?_, ?_, ?_, fun hnone hmeet => ?_⟩
  · rw [endOutput_frame]
    exact hwritten
  · rw [endOutput_frame]
    exact hgap
  · rw [endOutput_frame]
    exact hcounted
  · rw [endOutput_isEnd]
    rw [endOutput_frame] at hnone hmeet
    exact .inr ⟨hnone, hmeet⟩

theorem rested_push (r : StreamReassembler) (data : Bytes) (index : Nat) (eof : Bool) :
    (r.pushSubstring data index eof).Rested := by
  rw [pushSubstring_eq_fixCap]
  exact rested_stages _

/-- Before a gap the assembly loop does nothing. -/
theorem assemLoop_of_gap {l : List Entry} (gap : ∀ e ∈ l.head?, e.1 ≠ r.expectIdx) : assemLoop r l = r := by
  cases l with
  | nil => rfl
  | cons e l => rw [assemLoop, if_neg (gap e rfl)]

theorem assem_of_gap (gap : ∀ e ∈ r.unassemBuf.entries.head?, e.1 ≠ r.expectIdx)
    (counted : r.unassemSize = storedBytes r.unassemBuf.entries) : r.assem = r := by
  unfold assem
  rw [assemLoop_of_gap gap]
  dsimp only
  rw [← counted]

theorem Rested.assem_eq (h : r.Rested) : r.assem = r := assem_of_gap h.gap h.counted

/-- Noting another end index disturbs the last stage only. -/
theorem Rested.noted (h : r.Rested) (n : Nat) :
    { r with eofIndex := n }.fixCap.assem = { r with eofIndex := n } := by
  have htrimmed : { r with eofIndex := n }.Trimmed := h.trimmed
  rw [htrimmed.fixCap_eq]
  exact assem_of_gap h.gap h.counted

theorem Rested.noteEnd (h : r.Rested) (flushed : r.Flushed) (n : Nat) :
    { r with eofIndex := n }.fixCap.assem.writeStr.endOutput = { r with eofIndex := n }.endOutput := by
  have hflushed : { r with eofIndex := n }.Flushed := flushed
  rw [h.noted, hflushed.writeStr_eq]

theorem Rested.endOutput_eq (h : r.Rested) : r.endOutput = r := by
  unfold endOutput
  split
  next hc =>
    have hend := h.ended hc.1 hc.2
    have hsame : r.output.endInput = r.output := by
      unfold ByteStream.endInput
      rw [← hend]
    rw [hsame]
  next => rfl

/-- **At rest the stages change nothing**, if nothing waits that the output would take. -/
theorem Rested.stages_eq (h : r.Rested) (flushed : r.Flushed) : r.fixCap.assem.writeStr.endOutput = r := by
  rw [h.trimmed.fixCap_eq, h.assem_eq, flushed.writeStr_eq, h.endOutput_eq]

/-! ## An empty push -/

theorem length_le_storedBytes {l : List Entry} {e : Entry} (h : e ∈ l) : e.2.length ≤ storedBytes l := by
  rw [storedBytes_perm (List.perm_cons_erase h), storedBytes_cons]
  exact Nat.le_add_right _ _

theorem Trimmed.length_le (h : r.Trimmed) {e : Entry} (he : e ∈ r.unassemBuf.entries) :
    e.2.length ≤ r.capacity := by
  have hle := length_le_storedBytes he
  rcases h with hnone | hroom | ⟨hfits, -⟩
  · rw [hnone] at he
    cases he
  · omega
  · omega

/-- An empty push is dropped at the merge, or stores an empty substring at a free key past the expected
index. -/
theorem pushUnassem_nil {i : Nat} (inRange : i < 2 ^ 64)
    (short : ∀ e ∈ r.unassemBuf.entries, e.2.length < 2 ^ 64) :
    r.pushUnassem [] i = r ∨
      r.expectIdx < i ∧ r.unassemBuf.find? i = none ∧
        r.pushUnassem [] i = { r with unassemBuf := r.unassemBuf.insert i [] } := by
  rcases pushUnassem_cases r [] i inRange with ⟨heq, -⟩ | ⟨heq, -, -⟩ | ⟨heq, hlt, hlonger⟩
  · exact .inl heq
  · exact .inl heq
  · rw [List.length_nil, Nat.add_zero] at hlt
    rw [Nat.max_eq_left (Nat.le_of_lt hlt), List.drop_nil] at heq hlonger
    rw [List.length_nil, Nat.add_zero, mergeAt_nil (SortedMap.mem_insert.mpr (.inl rfl)) inRange] at heq
    · refine .inr ⟨hlt, ?_, heq⟩
      cases hfind : r.unassemBuf.find? i with
      | none => rfl
      | some old => exact absurd (hlonger old hfind) (Nat.not_lt_zero _)
    · intro e he
      rcases SortedMap.mem_insert.mp he with rfl | ⟨hmem, -⟩
      · exact Nat.two_pow_pos 64
      · exact short e hmem

/-- **What an empty push does to a reassembler at rest**: it notes the end index, and it may store an
empty substring or evict some. -/
theorem Rested.push_nil (h : r.Rested) (flushed : r.Flushed)
    (short : ∀ e ∈ r.unassemBuf.entries, e.2.length < 2 ^ 64) {i : Nat} (inRange : i < 2 ^ 64) {eof : Bool}
    (quiet : eof = true → r.assemBuf.length = 0 → r.expectIdx = i → r.output.isEnd = true) :
    ∃ buf, r.pushSubstring [] i eof =
        { r with unassemBuf := buf, eofIndex := if eof then i else r.eofIndex } ∧
      nonempties buf = nonempties r.unassemBuf := by
  have hstop : add i ([] : Bytes).length = i := add_eq inRange
  rw [pushSubstring_eq_fixCap, beforeFixCap, noted_eq, hstop]
  generalize heof : (if eof then i else r.eofIndex) = n
  have hrested : { r with eofIndex := n }.Rested := by
    refine ⟨h.trimmed, h.gap, h.counted, fun hnone hmeet => ?_⟩
    cases eof with
    | false => exact h.ended hnone (hmeet.trans heof.symm)
    | true => exact quiet rfl hnone (hmeet.trans heof.symm)
  rcases pushUnassem_nil (r := { r with eofIndex := n }) inRange short with
    heq | ⟨hlt, hfree, heq⟩
  · rw [heq, hrested.stages_eq flushed]
    exact ⟨r.unassemBuf, rfl, rfl⟩
  · -- the new entry is not the one the assembly waits for, and eviction only sees that it is empty
    rw [heq]
    generalize hx : { r with unassemBuf := r.unassemBuf.insert i [], eofIndex := n } = x
    have hbuf : nonempties x.fixCap.unassemBuf = nonempties r.unassemBuf := by
      have hbare : x.bare = { r with eofIndex := n }.bare := by
        rw [← hx, bare, nonempties_insert_nil hfree]
        rfl
      have hcommute := bare_fixCap x
      rw [hbare, ← bare_fixCap, hrested.trimmed.fixCap_eq] at hcommute
      exact congrArg unassemBuf hcommute
    have hframe : x.fixCap = { r with unassemBuf := x.fixCap.unassemBuf, eofIndex := n } := by
      rw [fixCap_frame, ← hx]
    obtain ⟨htrimmed, hhead⟩ := fixCap_trimmed x
    have hrested' : x.fixCap.Rested := by
      refine ⟨htrimmed, fun e he => ?_, ?_, ?_⟩
      · obtain ⟨a, ha, hkey⟩ := hhead e he
        rw [← hx] at ha
        rw [hframe, ← hkey]
        rcases SortedMap.head?_insert ha with rfl | hold
        · exact Nat.ne_of_gt hlt
        · exact h.gap a hold
      · rw [hframe]
        show r.unassemSize = storedBytes x.fixCap.unassemBuf.entries
        rw [h.counted, ← storedBytes_filter x.fixCap.unassemBuf.entries,
          ← storedBytes_filter r.unassemBuf.entries]
        exact congrArg (storedBytes ·.entries) hbuf.symm
      · rw [hframe]
        exact hrested.ended
    have hflushed : x.fixCap.Flushed := by
      rw [hframe]
      exact flushed
    rw [hrested'.assem_eq, hflushed.writeStr_eq, hrested'.endOutput_eq]
    exact ⟨_, hframe, hbuf⟩

/-! ## Pushes that lie behind or ahead -/

/-- A push of what is assembled already, its end taken in 64 bits, is dropped at the merge: only where it
ends matters, for the end index. -/
theorem pushSubstring_of_known {data : Bytes} {index : Nat} (known : add index data.length ≤ r.expectIdx)
    (eof : Bool) :
    r.pushSubstring data index eof =
      { r with
        eofIndex := if eof then add index data.length else r.eofIndex }.fixCap.assem.writeStr.endOutput := by
  have hdrop : ∀ n, { r with eofIndex := n }.pushUnassem data index = { r with eofIndex := n } := fun n =>
    if_pos known
  rw [pushSubstring_eq_fixCap, beforeFixCap, noted_eq, hdrop]

/-- **A merge covers nothing past its substring that was not covered.** The entries that start before
`m` end at 64-bit indices; the others may be anything. -/
theorem mergeAt_covers_past {buf : SortedMap Nat Bytes} {validIdx : Nat} {validStr : Bytes} {m n : Nat}
    (stop : validIdx + validStr.length ≤ m) (inRange : m < 2 ^ 64)
    (low : ∀ e ∈ buf.entries, e.1 < m → e.1 + e.2.length < 2 ^ 64) (past : m ≤ n)
    (h : Covers (mergeAt buf validIdx validStr (validIdx + validStr.length)) n) : Covers buf n := by
  obtain ⟨e, he, hlo, hhi⟩ := h
  rcases mem_mergeAt he with rfl | hmem
  swap
  · exact ⟨e, hmem, hlo, hhi⟩
  -- the merged string ends where the substring does, or where an entry does that starts before `m`
  have hbound : add validIdx validStr.length = validIdx + validStr.length := add_eq (by omega)
  have hleft : Entry.stop (leftEnd buf validIdx validStr) ≤ m ∨ ∃ p ∈ buf.entries, p.1 < m ∧
      Entry.stop (leftEnd buf validIdx validStr) = p.1 + p.2.length := by
    unfold leftEnd
    cases hl : leftNeighbour buf validIdx with
    | none => exact .inl (by rw [Option.getD_none, Entry.stop, hbound]; exact stop)
    | some l =>
      obtain ⟨hmem, hlt, -⟩ := SortedMap.lower?_eq_some (leftNeighbour_eq_some hl).1
      exact .inr ⟨l, hmem, by omega, add_eq (low l hmem (by omega))⟩
  have hright : (mergeRange buf validIdx validStr (validIdx + validStr.length)).1 ≤ m ∨
      ∃ p ∈ buf.entries, p.1 < m ∧
        (mergeRange buf validIdx validStr (validIdx + validStr.length)).1 = p.1 + p.2.length := by
    unfold mergeRange
    dsimp only
    obtain ⟨-, -, hmax | ⟨p, hp, hmax⟩⟩ := mergeRight_fst (add validIdx validStr.length)
      (buf.from validIdx) (max (Entry.stop (leftEnd buf validIdx validStr)) (validIdx + validStr.length))
    · rw [hmax]
      rcases Nat.le_total (Entry.stop (leftEnd buf validIdx validStr)) (validIdx + validStr.length) with
        hle | hle
      · exact .inl (by rw [Nat.max_eq_right hle]; exact stop)
      · rw [Nat.max_eq_left hle]
        exact hleft
    · obtain ⟨hfrom, hlt⟩ := mem_mergeRight hp
      have hmem := (SortedMap.mem_from.mp hfrom).1
      exact .inr ⟨p, hmem, by omega, hmax.trans (add_eq (low p hmem (by omega)))⟩
  have hge : validIdx + validStr.length ≤
      (mergeRange buf validIdx validStr (validIdx + validStr.length)).1 := by
    obtain ⟨hrb, -, -⟩ := mergeRight_fst (add validIdx validStr.length) (buf.from validIdx)
      (max (Entry.stop (leftEnd buf validIdx validStr)) (validIdx + validStr.length))
    exact Nat.le_trans (Nat.le_max_right _ _) hrb
  have hfirst := leftEnd_le buf validIdx validStr
  simp only [mergedStr, List.length_paint, List.length_replicate] at hhi hlo
  rcases hright with hle | ⟨p, hp, hlt, heq⟩
  · rw [sub_eq (by omega) (by omega)] at hhi
    omega
  · have hp64 := low p hp hlt
    rw [heq] at hge
    rw [heq, sub_eq (by omega) hp64] at hhi
    exact ⟨p, hp, by omega, by omega⟩

/-- What the stages behind the merge leave in the map was covered before them. -/
theorem stages_covers {n : Nat} (h : Covers r.fixCap.assem.writeStr.endOutput.unassemBuf n) :
    Covers r.unassemBuf n := by
  rw [endOutput_frame] at h
  obtain ⟨e, he, hlo, hhi⟩ := h
  rcases mem_fixCap ((assem_stored r.fixCap).2.1 e he) with hmem | ⟨a, ha, k, rfl⟩
  · exact ⟨e, hmem, hlo, hhi⟩
  · dsimp only at hlo hhi
    rw [List.length_take] at hhi
    exact ⟨a, ha, hlo, by omega⟩

/-- **A push covers nothing past its end that was not covered.** -/
theorem push_covers_past {data : Bytes} {index m n : Nat} (stop : index + data.length ≤ m)
    (inRange : m < 2 ^ 64) (low : ∀ e ∈ r.unassemBuf.entries, e.1 < m → e.1 + e.2.length < 2 ^ 64)
    (past : m ≤ n) {eof : Bool} (h : Covers (r.pushSubstring data index eof).unassemBuf n) :
    Covers r.unassemBuf n := by
  rw [pushSubstring_eq_fixCap] at h
  obtain ⟨-, -, hbuf, -, -⟩ := noted_frame r (add index data.length) eof
  have hbefore := stages_covers h
  unfold beforeFixCap at hbefore
  rw [← hbuf] at low ⊢
  generalize (if eof then { r with eofIndex := add index data.length } else r) = x at *
  rcases pushUnassem_cases x data index (by omega) with ⟨heq, -⟩ | ⟨heq, -, -⟩ | ⟨heq, hlt, -⟩
  · rwa [heq] at hbefore
  · rwa [heq] at hbefore
  · rw [heq] at hbefore
    have hstop : max index x.expectIdx + (data.drop (x.expectIdx - index)).length ≤ m := by
      rw [List.length_drop]
      omega
    have hlow : ∀ e ∈ (x.unassemBuf.insert (max index x.expectIdx)
        (data.drop (x.expectIdx - index))).entries, e.1 < m → e.1 + e.2.length < 2 ^ 64 := by
      intro e he hm
      rcases SortedMap.mem_insert.mp he with rfl | ⟨hmem, -⟩
      · dsimp only
        omega
      · exact low e hmem hm
    obtain ⟨e, he, hlo, hhi⟩ := mergeAt_covers_past hstop inRange hlow past hbefore
    rcases SortedMap.mem_insert.mp he with rfl | ⟨hmem, -⟩
    · dsimp only at hlo hhi
      omega
    · exact ⟨e, hmem, hlo, hhi⟩

end StreamReassembler

end Sponge
