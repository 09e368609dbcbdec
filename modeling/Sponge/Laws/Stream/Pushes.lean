import Sponge.Laws.Stream.Rest

/-!
# Laws.Stream.Pushes — what any push does

A peer may push any bytes at any index, so most of what the reassembler promises a conformant peer is lost.
What is left is read off the stages of a push here.

- It writes bytes that wait as soon as the output has room (`push_writes`).
- While everything stored lies ahead of the expected index, a push ahead of it assembles nothing
  (`Ahead.push_ahead`), and a push that reaches it and ends past it assembles something
  (`Ahead.push_reached`).
- Where nothing is stored at all, a push ahead of the expected index stores its substring, as far as there
  is room (`push_vacant`).
- An end index that the expected one has passed is told from another by no push that does not come to that
  other one (`Passed.push`).
-/

namespace Sponge

open Word64 (add sub add_eq sub_eq)

namespace StreamReassembler

variable {r : StreamReassembler}

/-! ## What a push assembles and writes -/

/-- The assembly loop appends to the assembled buffer, and counts what it appends. -/
theorem assemLoop_moves (r : StreamReassembler) (l : List Entry) : ∃ moved : Bytes,
    (assemLoop r l).assemBuf = r.assemBuf ++ moved ∧
      (assemLoop r l).expectIdx = r.expectIdx + moved.length := by
  induction l generalizing r with
  | nil => exact ⟨[], (List.append_nil _).symm, rfl⟩
  | cons e l ih =>
    rw [assemLoop]
    split
    next =>
      obtain ⟨moved, hbuf, hexpect⟩ := ih { r with
        assemBuf := r.assemBuf ++ e.2
        expectIdx := r.expectIdx + e.2.length
        unassemBuf := r.unassemBuf.erase e.1 }
      refine ⟨e.2 ++ moved, ?_, ?_⟩
      · rw [hbuf, List.append_assoc]
      · rw [hexpect, List.length_append, Nat.add_assoc]
    next => exact ⟨[], (List.append_nil _).symm, rfl⟩

/-- A push writes from the bytes that wait and those it assembles. -/
theorem pushSubstring_moves (r : StreamReassembler) (data : Bytes) (index : Nat) (eof : Bool) :
    ∃ (before : StreamReassembler) (moved : Bytes),
      r.pushSubstring data index eof = before.writeStr.endOutput ∧ before.output = r.output ∧
        before.assemBuf = r.assemBuf ++ moved ∧ before.expectIdx = r.expectIdx + moved.length := by
  have hframe : ((r.beforeFixCap data index eof).fixCap).output = r.output ∧
      ((r.beforeFixCap data index eof).fixCap).assemBuf = r.assemBuf ∧
      ((r.beforeFixCap data index eof).fixCap).expectIdx = r.expectIdx := by
    rw [beforeFixCap, noted_eq, fixCap_frame, pushUnassem_frame]
    exact ⟨rfl, rfl, rfl⟩
  obtain ⟨houtput, hbuf, hexpect⟩ := hframe
  rw [pushSubstring_eq_fixCap]
  generalize (r.beforeFixCap data index eof).fixCap = fixed at *
  obtain ⟨moved, hmoved, hcount⟩ := assemLoop_moves fixed fixed.unassemBuf.entries
  exact ⟨fixed.assem, moved, rfl, (assem_sameFrame fixed).1.trans houtput,
    hmoved.trans (congrArg (· ++ moved) hbuf), hcount.trans (congrArg (· + moved.length) hexpect)⟩

/-- The expected index counts the bytes written and those that wait to be. -/
def Counts (r : StreamReassembler) : Prop :=
  r.expectIdx = r.output.totalBytesWritten + r.assemBuf.length

theorem Counts.push (h : r.Counts) (data : Bytes) (index : Nat) (eof : Bool) :
    (r.pushSubstring data index eof).Counts := by
  obtain ⟨before, moved, heq, houtput, hbuf, hexpect⟩ := pushSubstring_moves r data index eof
  have hle := before.output.write_snd_le before.assemBuf
  have hlen := congrArg List.length hbuf
  rw [List.length_append] at hlen
  rw [heq, Counts, endOutput_frame]
  show before.expectIdx = (before.output.write before.assemBuf).1.totalBytesWritten +
    (before.assemBuf.drop (before.output.write before.assemBuf).2).length
  rw [ByteStream.write_totalBytesWritten, List.length_drop, hexpect, h, houtput]
  rw [houtput] at hle
  omega

/-- **A push writes bytes that wait**, when the output has room for them. -/
theorem push_writes (waiting : ¬r.Flushed) (data : Bytes) (index : Nat) (eof : Bool) :
    r.output.totalBytesWritten < (r.pushSubstring data index eof).output.totalBytesWritten := by
  rw [Flushed, not_or, not_or] at waiting
  obtain ⟨hsome, hopen, hroom⟩ := waiting
  have hfits := r.output.fits
  have hpos := List.length_pos_iff.mpr hsome
  obtain ⟨before, moved, heq, houtput, hbuf, -⟩ := pushSubstring_moves r data index eof
  rw [heq, endOutput_frame]
  show _ < (before.output.write before.assemBuf).1.totalBytesWritten
  rw [ByteStream.write_totalBytesWritten, houtput, ByteStream.write_snd _ (eq_false_of_ne_true hopen), hbuf,
    List.length_append]
  omega

/-- An output with room left takes more of more bytes. -/
theorem write_append_lt {output : ByteStream} (open_ : output.isEnd = false) {waiting moved : Bytes}
    (room : output.buf.length + waiting.length < output.cap) (more : 0 < moved.length) :
    (output.write waiting).1.totalBytesWritten < (output.write (waiting ++ moved)).1.totalBytesWritten := by
  rw [ByteStream.write_totalBytesWritten, ByteStream.write_totalBytesWritten, ByteStream.write_snd _ open_,
    ByteStream.write_snd _ open_, List.length_append]
  omega

/-! ## A push where everything stored lies ahead -/

/-- Every stored substring starts ahead of the expected index. -/
def Ahead (r : StreamReassembler) : Prop := ∀ e ∈ r.unassemBuf.entries, r.expectIdx < e.1

instance (r : StreamReassembler) : Decidable r.Ahead :=
  inferInstanceAs (Decidable (∀ e ∈ r.unassemBuf.entries, _))

/-- A merge stores under the key of its substring or under one that was there. -/
theorem pushUnassem_keys {data : Bytes} {index : Nat} {e : Entry}
    (h : e ∈ (r.pushUnassem data index).unassemBuf.entries) :
    e.1 = max index r.expectIdx ∨ ∃ a ∈ r.unassemBuf.entries, a.1 = e.1 := by
  have hidx : (if index < r.expectIdx then r.expectIdx else index) = max index r.expectIdx := by
    split <;> omega
  have hstored : ∀ (v : Bytes) (k rb : Nat), e ∈ (mergeAt (r.unassemBuf.insert k v) k v rb).entries →
      e.1 = k ∨ ∃ a ∈ r.unassemBuf.entries, a.1 = e.1 := by
    intro v k rb he
    have hinsert : ∀ a ∈ (r.unassemBuf.insert k v).entries,
        a.1 = k ∨ ∃ b ∈ r.unassemBuf.entries, b.1 = a.1 := by
      intro a ha
      rcases SortedMap.mem_insert.mp ha with rfl | ⟨hmem, -⟩
      · exact .inl rfl
      · exact .inr ⟨a, hmem, rfl⟩
    rcases mem_mergeAt he with rfl | hmem
    · unfold leftEnd
      cases hl : leftNeighbour (r.unassemBuf.insert k v) k with
      | none => exact .inl rfl
      | some l => exact hinsert l (SortedMap.lower?_eq_some (leftNeighbour_eq_some hl).1).1
    · exact hinsert e hmem
  unfold pushUnassem at h
  dsimp only at h
  rw [hidx] at h
  generalize (if index < r.expectIdx then data.drop (r.expectIdx - index) else data) = v at h
  split at h
  · exact .inr ⟨e, h, rfl⟩
  · split at h
    · exact hstored _ _ _ h
    · split at h
      · exact .inr ⟨e, h, rfl⟩
      · exact hstored _ _ _ h

/-- **A push ahead of the expected index assembles nothing**, and writes what waits. -/
theorem Ahead.push_ahead (h : r.Ahead) {index : Nat} (ahead : r.expectIdx < index) (data : Bytes)
    (eof : Bool) :
    (r.pushSubstring data index eof).output.totalBytesWritten =
      (r.output.write r.assemBuf).1.totalBytesWritten := by
  have hexpect : (r.beforeFixCap data index eof).fixCap.expectIdx = r.expectIdx := by
    rw [beforeFixCap, noted_eq, fixCap_frame, pushUnassem_frame]
  obtain ⟨houtput, -, hbuf⟩ := r.beforeFixCap_frame data index eof
  have hgap : ∀ e ∈ (r.beforeFixCap data index eof).fixCap.unassemBuf.entries.head?,
      e.1 ≠ (r.beforeFixCap data index eof).fixCap.expectIdx := by
    intro e he
    obtain ⟨a, ha, hkey⟩ := (fixCap_trimmed _).2 e he
    rw [hexpect, ← hkey]
    rw [beforeFixCap, noted_eq] at ha
    rcases pushUnassem_keys (List.mem_of_mem_head? ha) with hnew | ⟨b, hb, hold⟩
    · dsimp only at hnew
      omega
    · have := h b hb
      omega
  rw [pushSubstring_eq_fixCap]
  generalize r.beforeFixCap data index eof = before at *
  have hassem : before.fixCap.assem.assemBuf = r.assemBuf ∧ before.fixCap.assem.output = r.output := by
    unfold assem
    rw [assemLoop_of_gap hgap, fixCap_frame]
    exact ⟨hbuf, houtput⟩
  rw [endOutput_frame]
  show (before.fixCap.assem.output.write before.fixCap.assem.assemBuf).1.totalBytesWritten = _
  rw [hassem.1, hassem.2]

/-- Eviction leaves something of the first substring while there is room at all. -/
theorem fixCap_head {k : Nat} {s : Bytes} {rest : List Entry} (first : r.unassemBuf.entries = (k, s) :: rest)
    (nonempty : s ≠ []) (room : r.assemBuf.length < r.capacity) :
    ∃ s' rest', r.fixCap.unassemBuf.entries = (k, s') :: rest' ∧ s' ≠ [] := by
  by_cases hroom : r.assemBuf.length + storedBytes r.unassemBuf.entries < r.capacity
  · rw [Trimmed.fixCap_eq (.inr (.inl hroom))]
    exact ⟨s, rest, first, nonempty⟩
  · rw [fixCap_of_full hroom]
    cases hloop : fixCapLoop r.unassemBuf.entries.reverse
        (r.assemBuf.length + storedBytes r.unassemBuf.entries - r.capacity) r.unassemBuf with
    | none =>
      rw [fixCapLoop_eq_none, storedBytes_perm (List.reverse_perm _)] at hloop
      omega
    | some buf =>
      obtain ⟨front, last, n, hentries, hne, hpre⟩ := fixCapLoop_some (List.reverse_reverse _).symm hloop
      rw [first] at hpre
      dsimp only
      rw [Option.getD_some, hentries]
      cases front with
      | nil =>
        obtain ⟨tail, htail⟩ := hpre
        injection htail with hlast _
        rw [hlast] at hne ⊢
        exact ⟨_, _, rfl, hne⟩
      | cons e front =>
        obtain ⟨tail, htail⟩ := hpre
        injection htail with hfirst _
        rw [hfirst]
        exact ⟨s, _, rfl, nonempty⟩

/-- The merge of the first substring of a map stays the first, and is not empty. -/
theorem mergeAt_first {buf : SortedMap Nat Bytes} {k : Nat} (low : ∀ e ∈ buf.entries, k ≤ e.1) (v : Bytes)
    {rb : Nat} (past : k < rb) (inRange : rb < 2 ^ 64) :
    (leftEnd buf k v).1 = k ∧ ∃ s, (k, s) ∈ (mergeAt buf k v rb).entries ∧ s ≠ [] := by
  have hleft : leftNeighbour buf k = none := by
    rw [leftNeighbour, SortedMap.lower?_eq_none.mpr fun e he => Nat.not_lt.mpr (low e he)]
  have hend : leftEnd buf k v = (k, v) := by
    rw [leftEnd, hleft]
    rfl
  refine ⟨congrArg Prod.fst hend, mergedStr buf k v rb, ?_, ?_⟩
  · rw [mergeAt, hend]
    refine mem_foldl_erase.mpr ⟨SortedMap.mem_insert.mpr (.inl rfl), fun p hp => ?_⟩
    -- what is erased lies behind the first entry of the range
    have hsorted := mergeRange_sorted buf k v rb
    cases hrange : (mergeRange buf k v rb).2 with
    | nil =>
      rw [hrange] at hp
      cases hp
    | cons a l =>
      have ha := (mem_mergeRange (hrange ▸ List.mem_cons_self : a ∈ (mergeRange buf k v rb).2)).2
      rw [hrange] at hp hsorted
      have hlt := (List.pairwise_cons.mp hsorted).1 p hp
      rw [hend] at ha
      dsimp only at ha ⊢
      omega
  · intro hnil
    obtain ⟨hle, -, hmax⟩ := mergeRight_fst (add k v.length) (buf.from k)
      (max (Entry.stop (leftEnd buf k v)) rb)
    have hstop : ∀ e : Entry, Entry.stop e < 2 ^ 64 := fun e => Word64.add_lt _ _
    have hlen := congrArg List.length hnil
    have hfst : (mergeRange buf k v rb).1 = (mergeRight (add k v.length) (buf.from k)
      (max (Entry.stop (leftEnd buf k v)) rb)).1 := rfl
    rw [mergedStr, List.length_paint, List.length_replicate, hfst, hend] at hlen
    rw [hend] at hle hmax
    have hlt : (mergeRight (add k v.length) (buf.from k) (max (Entry.stop (k, v)) rb)).1 < 2 ^ 64 := by
      rcases hmax with heq | ⟨e, -, heq⟩
      · rw [heq]
        exact Nat.max_lt.mpr ⟨hstop _, inRange⟩
      · rw [heq]
        exact hstop e
    have hrb := Nat.le_trans (Nat.le_max_right _ _) hle
    rw [sub_eq (Nat.le_trans (Nat.le_of_lt past) hrb) hlt] at hlen
    exact absurd (Nat.sub_eq_zero_iff_le.mp hlen) (Nat.not_le_of_lt (Nat.lt_of_lt_of_le past hrb))

/-- The merge at the expected index stores something there, first in the map. -/
theorem Ahead.pushUnassem_reached (h : r.Ahead) {data : Bytes} {index : Nat} (reached : index ≤ r.expectIdx)
    (inRange : index + data.length < 2 ^ 64) (past : r.expectIdx < index + data.length) :
    ∃ s rest, (r.pushUnassem data index).unassemBuf.entries = (r.expectIdx, s) :: rest ∧ s ≠ [] := by
  have hnone : r.unassemBuf.find? r.expectIdx = none :=
    SortedMap.find?_eq_none.mpr fun e he => Nat.ne_of_gt (h e he)
  rcases pushUnassem_cases r data index inRange with ⟨-, hdone⟩ | ⟨-, -, old, hold, -⟩ | ⟨heq, -, -⟩
  · omega
  · rw [Nat.max_eq_right reached, hnone] at hold
    cases hold
  rw [Nat.max_eq_right reached] at heq
  have hpos : 0 < (data.drop (r.expectIdx - index)).length := by
    rw [List.length_drop]
    omega
  have hstop : r.expectIdx + (data.drop (r.expectIdx - index)).length < 2 ^ 64 := by
    rw [List.length_drop]
    omega
  generalize data.drop (r.expectIdx - index) = v at *
  have hkeys : ∀ e ∈ (r.unassemBuf.insert r.expectIdx v).entries, r.expectIdx ≤ e.1 := by
    intro e he
    rcases SortedMap.mem_insert.mp he with rfl | ⟨hmem, -⟩
    · exact Nat.le_refl _
    · exact Nat.le_of_lt (h e hmem)
  obtain ⟨hleft, s, hs, hne⟩ := mergeAt_first hkeys v
    (show r.expectIdx < r.expectIdx + v.length by omega) hstop
  obtain ⟨rest, hrest⟩ := SortedMap.entries_of_least hs fun a ha => by
    rcases mem_mergeAt ha with rfl | hmem
    · exact Nat.not_lt.mpr (Nat.le_of_eq hleft.symm)
    · exact Nat.not_lt.mpr (hkeys a hmem)
  rw [heq]
  exact ⟨s, rest, hrest, hne⟩

/-- **A push that reaches the expected index assembles something**, and writes it behind what waits. -/
theorem Ahead.push_reached (h : r.Ahead) {data : Bytes} {index : Nat} (reached : index ≤ r.expectIdx)
    (inRange : index + data.length < 2 ^ 64) (past : r.expectIdx < index + data.length)
    (room : r.assemBuf.length < r.capacity) (eof : Bool) :
    ∃ moved : Bytes, moved ≠ [] ∧ (r.pushSubstring data index eof).output.totalBytesWritten =
      (r.output.write (r.assemBuf ++ moved)).1.totalBytesWritten := by
  have hfirst : ∃ s rest, (r.beforeFixCap data index eof).unassemBuf.entries = (r.expectIdx, s) :: rest ∧
      s ≠ [] := by
    rw [beforeFixCap, noted_eq]
    exact Ahead.pushUnassem_reached (r := { r with
      eofIndex := if eof then add index data.length else r.eofIndex }) h reached inRange past
  have hexpect : (r.beforeFixCap data index eof).fixCap.expectIdx = r.expectIdx := by
    rw [beforeFixCap, noted_eq, fixCap_frame, pushUnassem_frame]
  obtain ⟨houtput, hcap, hbuf⟩ := r.beforeFixCap_frame data index eof
  rw [pushSubstring_eq_fixCap]
  generalize r.beforeFixCap data index eof = before at *
  obtain ⟨s, rest, hentries, hne⟩ := hfirst
  obtain ⟨s', rest', hfixed, hne'⟩ := fixCap_head hentries hne (by rw [hbuf, hcap]; exact room)
  have hframe : before.fixCap.output = r.output ∧ before.fixCap.assemBuf = r.assemBuf := by
    rw [fixCap_frame]
    exact ⟨houtput, hbuf⟩
  generalize before.fixCap = fixed at *
  obtain ⟨moved, hmoved, -⟩ := assemLoop_moves { fixed with
    assemBuf := fixed.assemBuf ++ s'
    expectIdx := fixed.expectIdx + s'.length
    unassemBuf := fixed.unassemBuf.erase r.expectIdx } rest'
  have hassem : fixed.assem.assemBuf = r.assemBuf ++ (s' ++ moved) := by
    unfold assem
    rw [hfixed, assemLoop, if_pos hexpect.symm]
    dsimp only
    rw [hmoved]
    dsimp only
    rw [hframe.2, List.append_assoc]
  refine ⟨s' ++ moved, fun hc => hne' (List.append_eq_nil_iff.mp hc).1, ?_⟩
  rw [endOutput_frame]
  show (fixed.assem.output.write fixed.assem.assemBuf).1.totalBytesWritten = _
  rw [hassem, (assem_sameFrame fixed).1, hframe.1]

/-! ## A push where nothing is stored -/

/-- Merging into an empty map stores the substring alone, as long as it is. -/
theorem mergeAt_single (k : Nat) {v : Bytes} (short : v.length < 2 ^ 64) :
    ∃ merged, (mergeAt (SortedMap.empty.insert k v) k v (add k v.length)).entries = [(k, merged)] ∧
      merged.length = v.length := by
  have hentries : (SortedMap.empty.insert k v).entries = [(k, v)] := rfl
  have hleft : leftNeighbour (SortedMap.empty.insert k v) k = none := by
    rw [leftNeighbour, SortedMap.lower?_eq_none.mpr]
    intro e he
    rw [hentries, List.mem_singleton] at he
    rw [he]
    exact Nat.lt_irrefl k
  have hend : leftEnd (SortedMap.empty.insert k v) k v = (k, v) := by
    rw [leftEnd, hleft]
    rfl
  have hfrom : (SortedMap.empty.insert k v).from k = [(k, v)] := by
    simp only [SortedMap.from, hentries, Nat.lt_irrefl, not_false_eq_true, decide_true,
      List.filter_cons_of_pos, List.filter_nil]
  obtain ⟨range, hrange, hshort⟩ : ∃ range, mergeRange (SortedMap.empty.insert k v) k v (add k v.length) =
      (add k v.length, range) ∧ range.tail = [] := by
    unfold mergeRange
    rw [hend, hleft, hfrom, Entry.stop, Nat.max_self]
    simp only [mergeRight, Entry.stop, Nat.max_self]
    split
    · exact ⟨_, rfl, rfl⟩
    · exact ⟨_, rfl, rfl⟩
  have hlen : sub (add k v.length) k = v.length := by
    unfold add sub
    omega
  refine ⟨mergedStr (SortedMap.empty.insert k v) k v (add k v.length), ?_, ?_⟩
  · rw [mergeAt, hrange, hshort, hend]
    simp only [List.foldl_nil, SortedMap.insert, SortedMap.empty, List.filter_nil, List.nil_append,
      Nat.lt_irrefl, decide_false, List.filter_cons_of_neg, Bool.false_eq_true, not_false_eq_true]
  · rw [mergedStr, hrange, hend, List.length_paint, List.length_replicate, hlen]

/-- With nothing stored, a substring ahead of the expected index is stored alone. -/
theorem pushUnassem_vacant (vacant : r.unassemBuf.entries = []) {data : Bytes} {index : Nat}
    (short : data.length < 2 ^ 64) (ahead : r.expectIdx < index)
    (past : r.expectIdx < add index data.length) :
    ∃ merged, (r.pushUnassem data index).unassemBuf.entries = [(index, merged)] ∧
      merged.length = data.length := by
  have hempty : r.unassemBuf = SortedMap.empty := SortedMap.ext vacant
  have hnone : r.unassemBuf.find? index = none := by
    rw [hempty]
    rfl
  have hnot : ¬index < r.expectIdx := Nat.not_lt.mpr (Nat.le_of_lt ahead)
  obtain ⟨merged, hmerged, hlen⟩ := mergeAt_single index short
  refine ⟨merged, ?_, hlen⟩
  unfold pushUnassem
  dsimp only
  rw [if_neg (Nat.not_le_of_lt past), if_neg hnot, if_neg hnot, hnone, hempty]
  exact hmerged

/-- Eviction cuts a substring that is stored alone to the room there is. -/
theorem fixCap_single {k : Nat} {s : Bytes} (single : r.unassemBuf.entries = [(k, s)])
    (room : r.assemBuf.length < r.capacity) :
    r.fixCap.unassemBuf.entries = [(k, s.take (r.capacity - r.assemBuf.length))] := by
  have hstored : storedBytes r.unassemBuf.entries = s.length := by
    rw [single, storedBytes_cons]
    rfl
  have hsize : r.unassemBuf.size ≠ 0 := by
    rw [SortedMap.size, single]
    exact Nat.one_ne_zero
  unfold fixCap
  rw [if_neg hsize]
  dsimp only
  rw [hstored]
  split
  next hfits => rw [single, List.take_of_length_le (by omega)]
  next hfull =>
    rw [single, List.reverse_singleton, fixCapLoop, if_neg (by dsimp only; omega), Option.getD_some]
    dsimp only
    have hinsert : ∀ v : Bytes, (r.unassemBuf.insert k v).entries = [(k, v)] :=
      SortedMap.entries_insert_last (e := (k, s)) (single.trans (List.nil_append _).symm)
    rw [hinsert, show s.length - (r.assemBuf.length + s.length - r.capacity) =
      r.capacity - r.assemBuf.length by omega]

/-- **Where nothing is stored, a push ahead of the expected index stores its substring**, as far as there is
room for it. -/
theorem push_vacant (vacant : r.unassemBuf.entries = []) {data : Bytes} {index : Nat}
    (short : data.length < 2 ^ 64) (ahead : r.expectIdx < index)
    (past : r.expectIdx < add index data.length) (room : r.assemBuf.length < r.capacity) (eof : Bool) :
    (r.pushSubstring data index eof).unassemSize = min data.length (r.capacity - r.assemBuf.length) := by
  have hsingle : ∃ merged, (r.beforeFixCap data index eof).unassemBuf.entries = [(index, merged)] ∧
      merged.length = data.length := by
    rw [beforeFixCap, noted_eq]
    exact pushUnassem_vacant (r := { r with
      eofIndex := if eof then add index data.length else r.eofIndex }) vacant short ahead past
  have hexpect : (r.beforeFixCap data index eof).fixCap.expectIdx = r.expectIdx := by
    rw [beforeFixCap, noted_eq, fixCap_frame, pushUnassem_frame]
  obtain ⟨-, hcap, hbuf⟩ := r.beforeFixCap_frame data index eof
  rw [pushSubstring_eq_fixCap]
  generalize r.beforeFixCap data index eof = before at *
  obtain ⟨merged, hentries, hlen⟩ := hsingle
  have hfixed := fixCap_single hentries (by rw [hbuf, hcap]; exact room)
  have hgap : ∀ e ∈ before.fixCap.unassemBuf.entries.head?, e.1 ≠ before.fixCap.expectIdx := by
    rw [hfixed, hexpect]
    intro e he
    cases he
    exact Nat.ne_of_gt ahead
  have hcount : before.fixCap.assem.unassemSize = storedBytes before.fixCap.unassemBuf.entries := by
    unfold assem
    rw [assemLoop_of_gap hgap]
  rw [endOutput_frame]
  show before.fixCap.assem.unassemSize = _
  rw [hcount, hfixed, storedBytes_cons, hbuf, hcap, List.length_take, hlen, Nat.min_comm]
  rfl

/-! ## End indices that have been passed -/

/-- The reassembler with another end index. -/
def endsAt (r : StreamReassembler) (n : Nat) : StreamReassembler := { r with eofIndex := n }

theorem endsAt_pushUnassem (r : StreamReassembler) (n : Nat) (data : Bytes) (index : Nat) :
    (r.endsAt n).pushUnassem data index = (r.pushUnassem data index).endsAt n := by
  unfold pushUnassem endsAt
  dsimp only
  split
  · rfl
  · generalize (if index < r.expectIdx then r.expectIdx else index) = i
    generalize (if index < r.expectIdx then data.drop (r.expectIdx - index) else data) = v
    generalize r.unassemBuf.find? i = old
    cases old with
    | none => rfl
    | some old =>
      dsimp only
      split <;> rfl

theorem endsAt_fixCap (r : StreamReassembler) (n : Nat) : (r.endsAt n).fixCap = r.fixCap.endsAt n := by
  unfold fixCap endsAt
  dsimp only
  split
  · rfl
  · split <;> rfl

theorem endsAt_assem (r : StreamReassembler) (n : Nat) : (r.endsAt n).assem = r.assem.endsAt n := by
  have hloop : ∀ (l : List Entry) (r : StreamReassembler),
      assemLoop (r.endsAt n) l = (assemLoop r l).endsAt n := by
    intro l
    induction l with
    | nil => exact fun _ => rfl
    | cons e l ih =>
      intro r
      rw [assemLoop, assemLoop, show (r.endsAt n).expectIdx = r.expectIdx from rfl]
      split
      next => exact ih { r with
        assemBuf := r.assemBuf ++ e.2
        expectIdx := r.expectIdx + e.2.length
        unassemBuf := r.unassemBuf.erase e.1 }
      next => rfl
  unfold assem
  rw [hloop]
  rfl

/-- The index is behind the expected one, so that it can end the output no more, or the output has ended. -/
def Passed (r : StreamReassembler) (n : Nat) : Prop := r.output.isEnd = true ∨ n < r.expectIdx

theorem endOutput_of_unmet (h : r.output.isEnd = true ∨ r.eofIndex ≠ r.expectIdx) : r.endOutput = r := by
  unfold endOutput
  rcases h with hend | hne
  · have hsame : r.output.endInput = r.output := by
      unfold ByteStream.endInput
      rw [← hend]
    rw [hsame]
    exact ite_id _
  · exact if_neg fun hc => hne hc.2.symm

theorem Passed.endOutput_eq {n : Nat} (h : r.Passed n) : (r.endsAt n).endOutput = r.endsAt n :=
  endOutput_of_unmet (r := r.endsAt n) (h.imp_right Nat.ne_of_lt)

/-- The stages before the last keep the end where it is, and do not move the expected index back. -/
theorem stages_frame (r : StreamReassembler) (data : Bytes) (index : Nat) :
    let staged := (r.pushUnassem data index).fixCap.assem.writeStr
    staged.output.isEnd = r.output.isEnd ∧ staged.eofIndex = r.eofIndex ∧
      r.expectIdx ≤ staged.expectIdx := by
  obtain ⟨houtput, -, heof⟩ :=
    ((pushUnassem_sameFrame r data index).trans (fixCap_sameFrame _)).trans (assem_sameFrame _)
  have hexpect : (r.pushUnassem data index).fixCap.expectIdx = r.expectIdx := by
    rw [fixCap_frame, pushUnassem_frame]
  obtain ⟨moved, -, hmoved⟩ := assemLoop_moves (r.pushUnassem data index).fixCap
    (r.pushUnassem data index).fixCap.unassemBuf.entries
  rw [hexpect] at hmoved
  change (r.pushUnassem data index).fixCap.assem.expectIdx = _ at hmoved
  unfold writeStr
  dsimp only
  rw [ByteStream.write_isEnd, houtput, heof, hmoved]
  exact ⟨rfl, rfl, Nat.le_add_right _ _⟩

/-- **A push does not tell an end index from one that has been passed**, unless it comes to the first; and it
takes a new one alike. -/
theorem Passed.push {n : Nat} (h : r.Passed n) (data : Bytes) (index : Nat) (eof : Bool)
    (unmet : r.output.isEnd = true ∨ (r.pushSubstring data index eof).expectIdx ≠ r.eofIndex) :
    ∃ n', (r.endsAt n).pushSubstring data index eof = (r.pushSubstring data index eof).endsAt n' ∧
      (n' = (r.pushSubstring data index eof).eofIndex ∨
        (r.pushSubstring data index eof).Passed n' ∧
          (r.pushSubstring data index eof).eofIndex = r.eofIndex) := by
  cases eof with
  | true =>
    have hbefore : (r.endsAt n).beforeFixCap data index true = r.beforeFixCap data index true := by
      rw [beforeFixCap, beforeFixCap, if_pos rfl, if_pos rfl]
      rfl
    refine ⟨(r.pushSubstring data index true).eofIndex, ?_, .inl rfl⟩
    rw [pushSubstring_eq_fixCap, hbefore, ← pushSubstring_eq_fixCap]
    generalize r.pushSubstring data index true = pushed
    rfl
  | false =>
    have hbefore : (r.endsAt n).beforeFixCap data index false =
        (r.beforeFixCap data index false).endsAt n := endsAt_pushUnassem r n data index
    obtain ⟨hend, heof, hexpect⟩ := r.stages_frame data index
    change (r.beforeFixCap data index false).fixCap.assem.writeStr.output.isEnd = _ at hend
    change (r.beforeFixCap data index false).fixCap.assem.writeStr.eofIndex = _ at heof
    change _ ≤ (r.beforeFixCap data index false).fixCap.assem.writeStr.expectIdx at hexpect
    rw [pushSubstring_eq_fixCap, StreamReassembler.endOutput_frame] at unmet
    have hpassed : (r.beforeFixCap data index false).fixCap.assem.writeStr.Passed n :=
      h.imp hend.trans fun hlt => Nat.lt_of_lt_of_le hlt hexpect
    have hsame : (r.pushSubstring data index false) =
        (r.beforeFixCap data index false).fixCap.assem.writeStr := by
      rw [pushSubstring_eq_fixCap]
      exact endOutput_of_unmet (unmet.imp hend.trans fun hne heq => hne (heq.symm.trans heof))
    refine ⟨n, ?_, .inr ?_⟩
    · rw [pushSubstring_eq_fixCap, hbefore, endsAt_fixCap, endsAt_assem, hsame]
      exact hpassed.endOutput_eq
    · rw [hsame]
      exact ⟨hpassed, heof⟩

end StreamReassembler

end Sponge
