import Sponge.Laws.Stream.Merge

/-!
# Laws.Stream.Reassembler — a push never writes a wrong byte

`Safe S r` is what the reassembler keeps as long as every substring pushed is an excerpt of the
stream `S`, wherever it lies, whatever it overlaps and however much of it is empty: the output holds
`S` from the first unread byte on, the assembled buffer continues it up to the expected index, and
every stored substring is an excerpt. Each stage of a push keeps it (`pushUnassem_safe`,
`fixCap_safe`, `assem_safe`, `writeStr_safe`), so `pushSubstring_safe` does.

Nothing here says that a byte is ever assembled; an eviction or a stale entry may hold the stream
up for good. The complete law for pushes inside the capacity is `Laws.Stream.Reassembly`.
-/

namespace Sponge

open Word64 (add sub add_eq sub_eq)

namespace ByteStream

/-- The stream holds `S` from its first unread byte on, and its totals agree with that. -/
structure Carries (S : Bytes) (b : ByteStream) : Prop where
  written : b.totalBytesWritten = b.totalBytesRead + b.buf.length
  buffered : List.Excerpt S b.totalBytesRead b.buf
  within : b.totalBytesWritten ≤ S.length

theorem carries_new (S : Bytes) (capacity : Nat) : (new capacity).Carries S :=
  ⟨rfl, List.excerpt_nil _ _, Nat.zero_le _⟩

/-- Writing what the stream `S` continues with keeps it. -/
theorem Carries.write {S : Bytes} {b : ByteStream} (h : b.Carries S) {data : Bytes}
    (next : List.Excerpt S b.totalBytesWritten data) : (b.write data).1.Carries S := by
  have hle := b.write_snd_le data
  refine ⟨?_, ?_, ?_⟩
  · rw [write_totalBytesWritten, write_totalBytesRead, write_buf_take, h.written,
      List.length_append, List.length_take]
    omega
  · rw [write_totalBytesRead, write_buf_take]
    refine h.buffered.append ?_
    rw [← h.written]
    exact next.take _
  · rw [write_totalBytesWritten]
    by_cases hdata : data = []
    · have := h.within
      rw [hdata] at hle ⊢
      rw [List.length_nil] at hle
      omega
    · have := next.length_le hdata
      omega

theorem Carries.popOutput {S : Bytes} {b : ByteStream} (h : b.Carries S) (len : Nat) :
    (b.popOutput len).Carries S := by
  refine ⟨?_, ?_, h.within⟩
  · rw [popOutput_totalBytesWritten, popOutput_totalBytesRead, popOutput_buf, h.written,
      List.length_drop]
    omega
  · rw [popOutput_totalBytesRead, popOutput_buf]
    rcases Nat.le_total len b.buf.length with hle | hle
    · rw [Nat.min_eq_left hle]
      exact h.buffered.drop len
    · rw [List.drop_of_length_le hle]
      exact List.excerpt_nil _ _

theorem Carries.extend {S : Bytes} {b : ByteStream} (h : b.Carries S) (T : Bytes) :
    b.Carries (S ++ T) :=
  ⟨h.written, h.buffered.extend T, by
    have := h.within
    rw [List.length_append]
    omega⟩

/-- The bytes written are a prefix of `S`: those read and those buffered. -/
theorem Carries.take_append {S : Bytes} {b : ByteStream} (h : b.Carries S) :
    S.take b.totalBytesRead ++ b.buf = S.take b.totalBytesWritten := by
  rw [h.buffered.take_append, h.written]

/-- Reading continues a log of everything read before. -/
theorem Carries.read_log {S : Bytes} {b : ByteStream} (h : b.Carries S) {readLog : Bytes}
    (log : readLog = S.take b.totalBytesRead) (len : Nat) :
    readLog ++ b.peekOutput len = S.take (b.popOutput len).totalBytesRead := by
  rw [peekOutput_eq, log, (h.buffered.take len).take_append, List.length_take,
    popOutput_totalBytesRead]

theorem Carries.endInput {S : Bytes} {b : ByteStream} (h : b.Carries S) : b.endInput.Carries S :=
  ⟨h.written, h.buffered, h.within⟩

end ByteStream

namespace StreamReassembler

/-- What a push keeps when every substring is an excerpt of `S`. -/
structure Safe (S : Bytes) (r : StreamReassembler) : Prop where
  output : r.output.Carries S
  assembled : List.Excerpt S r.output.totalBytesWritten r.assemBuf
  expect : r.expectIdx = r.output.totalBytesWritten + r.assemBuf.length
  stored : ∀ e ∈ r.unassemBuf.entries, Held S e

variable {S : Bytes} {r : StreamReassembler} {data : Bytes} {index : Nat}

theorem safe_new (S : Bytes) (capacity : Nat) : Safe S (new capacity) where
  output := ByteStream.carries_new S capacity
  assembled := List.excerpt_nil _ _
  expect := rfl
  stored := fun _ h => by cases h

/-- A stream that grows keeps what was safe for it. -/
theorem Safe.extend (h : Safe S r) (T : Bytes) : Safe (S ++ T) r where
  output := h.output.extend T
  assembled := h.assembled.extend T
  expect := h.expect
  stored := fun e he => ⟨(h.stored e he).excerpt.extend T, (h.stored e he).inRange⟩

theorem Safe.popOutput (h : Safe S r) (len : Nat) : Safe S (r.popOutput len) where
  output := h.output.popOutput len
  assembled := h.assembled
  expect := h.expect
  stored := h.stored

/-! ## The merge stage -/

/-- What `pushUnassem` can do with a substring whose end is a 64-bit index: nothing, because the
substring is assembled already or a longer one stands at its index; or store and merge the part
past the expected index. -/
theorem pushUnassem_cases (r : StreamReassembler) (data : Bytes) (index : Nat)
    (inRange : index + data.length < 2 ^ 64) :
    let validIdx := max index r.expectIdx
    let validStr := data.drop (r.expectIdx - index)
    (r.pushUnassem data index = r ∧ index + data.length ≤ r.expectIdx) ∨
    (r.pushUnassem data index = r ∧ r.expectIdx < index + data.length ∧
      ∃ old, r.unassemBuf.find? validIdx = some old ∧ validStr.length ≤ old.length) ∨
    (r.pushUnassem data index =
        { r with unassemBuf := mergeAt (r.unassemBuf.insert validIdx validStr) validIdx validStr
                  (validIdx + validStr.length) } ∧
      r.expectIdx < index + data.length ∧
      ∀ old, r.unassemBuf.find? validIdx = some old → old.length < validStr.length) := by
  intro validIdx validStr
  have hidx : (if index < r.expectIdx then r.expectIdx else index) = validIdx := by
    split <;> omega
  have hstr : (if index < r.expectIdx then data.drop (r.expectIdx - index) else data) = validStr := by
    split
    · rfl
    · rw [show validStr = data.drop 0 from congrArg data.drop (by omega), List.drop_zero]
  have hstop : r.expectIdx < index + data.length →
      add index data.length = validIdx + validStr.length := by
    intro hlt
    rw [add_eq inRange]
    simp only [validIdx, validStr, List.length_drop]
    omega
  unfold pushUnassem
  dsimp only
  rw [hidx, hstr]
  by_cases hdone : index + data.length ≤ r.expectIdx
  · rw [add_eq inRange, if_pos hdone]
    exact .inl ⟨rfl, hdone⟩
  · have hlt : r.expectIdx < index + data.length := Nat.lt_of_not_le hdone
    rw [if_neg (by rwa [add_eq inRange]), hstop hlt]
    cases hf : r.unassemBuf.find? validIdx with
    | none => exact .inr (.inr ⟨rfl, hlt, fun _ h => by cases h⟩)
    | some old =>
      dsimp only
      split
      next hle => exact .inr (.inl ⟨rfl, hlt, old, rfl, hle⟩)
      next hgt =>
        refine .inr (.inr ⟨rfl, hlt, fun o ho => ?_⟩)
        cases ho
        exact Nat.lt_of_not_le hgt

theorem pushUnassem_frame (r : StreamReassembler) (data : Bytes) (index : Nat) :
    r.pushUnassem data index =
      { r with unassemBuf := (r.pushUnassem data index).unassemBuf } := by
  unfold pushUnassem
  dsimp only
  split
  · rfl
  · split
    · rfl
    · split <;> split <;> rfl

/-- The part past the expected index is an excerpt at its own index. -/
theorem valid_excerpt (next : List.Excerpt S index data) (expectIdx : Nat) :
    List.Excerpt S (max index expectIdx) (data.drop (expectIdx - index)) := by
  have h := next.drop (expectIdx - index)
  rwa [show index + (expectIdx - index) = max index expectIdx by omega] at h

theorem pushUnassem_safe (h : Safe S r) (next : List.Excerpt S index data)
    (inRange : index + data.length < 2 ^ 64) : Safe S (r.pushUnassem data index) := by
  rcases pushUnassem_cases r data index inRange with ⟨heq, -⟩ | ⟨heq, -, -⟩ | ⟨heq, hlt, -⟩
  · rw [heq]; exact h
  · rw [heq]; exact h
  · rw [heq]
    have held : ∀ e ∈ (r.unassemBuf.insert (max index r.expectIdx)
        (data.drop (r.expectIdx - index))).entries, Held S e := by
      intro e he
      rcases SortedMap.mem_insert.mp he with rfl | ⟨hmem, -⟩
      · refine ⟨valid_excerpt next _, ?_⟩
        simp only [List.length_drop]
        omega
      · exact h.stored e hmem
    refine ⟨h.output, h.assembled, h.expect, fun e he => ?_⟩
    rcases mem_mergeAt he with rfl | hmem
    · exact mergedStr_held held (SortedMap.mem_insert.mpr (.inl rfl))
    · exact held e hmem

/-! ## The capacity stage -/

/-- What the eviction loop leaves: old entries, one of them perhaps cut. -/
theorem mem_fixCapLoop {l : List Entry} {overflow : Nat} {buf buf' : SortedMap Nat Bytes}
    (h : fixCapLoop l overflow buf = some buf') {e : Entry} (he : e ∈ buf'.entries) :
    e ∈ buf.entries ∨ ∃ a ∈ l, ∃ n, e = (a.1, a.2.take n) := by
  induction l generalizing overflow buf with
  | nil => cases h
  | cons a l ih =>
    rw [fixCapLoop] at h
    split at h
    · rcases ih h with hmem | ⟨b, hb, n, rfl⟩
      · exact .inl (SortedMap.mem_erase.mp hmem).1
      · exact .inr ⟨b, List.mem_cons_of_mem _ hb, n, rfl⟩
    · cases h
      rcases SortedMap.mem_insert.mp he with rfl | ⟨hmem, -⟩
      · exact .inr ⟨a, List.mem_cons_self, _, rfl⟩
      · exact .inl hmem

/-- `fixCap` touches nothing but the map. -/
theorem fixCap_frame (r : StreamReassembler) :
    r.fixCap = { r with unassemBuf := r.fixCap.unassemBuf } := by
  unfold fixCap
  split
  · rfl
  · dsimp only
    split <;> rfl

/-- Nothing has to be evicted: nothing is stored, or there is room left, or the last entry is not empty
and everything just fits. -/
def Trimmed (r : StreamReassembler) : Prop :=
  r.unassemBuf.entries = [] ∨ r.assemBuf.length + storedBytes r.unassemBuf.entries < r.capacity ∨
    r.assemBuf.length + storedBytes r.unassemBuf.entries ≤ r.capacity ∧
      ∃ front last, r.unassemBuf.entries = front ++ [last] ∧ last.2 ≠ []

/-- Nothing is evicted then: cutting nothing off the last entry stores what is stored. -/
theorem Trimmed.fixCap_eq (h : r.Trimmed) : r.fixCap = r := by
  unfold fixCap
  rcases h with hnone | hroom | ⟨hfits, front, last, hlast, hne⟩
  · have hsize : r.unassemBuf.size = 0 := congrArg List.length hnone
    rw [if_pos hsize]
  · dsimp only
    rw [if_pos hroom, ite_self]
  · have hmem : last ∈ r.unassemBuf.entries := by
      rw [hlast]
      exact List.mem_append_right _ List.mem_cons_self
    have hloop : fixCapLoop r.unassemBuf.entries.reverse 0 r.unassemBuf = some r.unassemBuf := by
      have hpos := List.length_pos_iff.mpr hne
      rw [hlast, List.reverse_append, List.reverse_singleton, List.singleton_append, fixCapLoop,
        if_neg (by omega), Nat.sub_zero, List.take_length, SortedMap.insert_of_mem hmem]
    dsimp only
    rw [Nat.sub_eq_zero_of_le hfits, hloop, Option.getD_some, ite_self, ite_self]

theorem Held.take {e : Entry} (h : Held S e) (n : Nat) : Held S (e.1, e.2.take n) := by
  have hr := h.inRange
  refine ⟨h.excerpt.take n, ?_⟩
  simp only [List.length_take]
  omega

/-- What `fixCap` leaves: old entries, one of them perhaps cut. -/
theorem mem_fixCap {e : Entry} (he : e ∈ r.fixCap.unassemBuf.entries) :
    e ∈ r.unassemBuf.entries ∨ ∃ a ∈ r.unassemBuf.entries, ∃ n, e = (a.1, a.2.take n) := by
  unfold fixCap at he
  split at he
  · exact .inl he
  · dsimp only at he
    split at he
    · exact .inl he
    · cases hloop : fixCapLoop r.unassemBuf.entries.reverse
          (r.assemBuf.length + storedBytes r.unassemBuf.entries - r.capacity) r.unassemBuf with
      | none =>
        rw [hloop] at he
        cases he
      | some buf =>
        rw [hloop] at he
        rcases mem_fixCapLoop hloop he with hmem | ⟨a, ha, n, rfl⟩
        · exact .inl hmem
        · exact .inr ⟨a, List.mem_reverse.mp ha, n, rfl⟩

theorem fixCap_safe (h : Safe S r) : Safe S r.fixCap := by
  have hstored : ∀ e ∈ r.fixCap.unassemBuf.entries, Held S e := by
    intro e he
    rcases mem_fixCap he with hmem | ⟨a, ha, n, rfl⟩
    · exact h.stored e hmem
    · exact (h.stored a ha).take n
  rw [fixCap_frame]
  exact ⟨h.output, h.assembled, h.expect, hstored⟩

/-! ## Assembly and output -/

theorem assemLoop_frame (r : StreamReassembler) (l : List Entry) :
    (assemLoop r l).output = r.output ∧ (assemLoop r l).capacity = r.capacity ∧
      (assemLoop r l).eofIndex = r.eofIndex := by
  induction l generalizing r with
  | nil => exact ⟨rfl, rfl, rfl⟩
  | cons e l ih =>
    rw [assemLoop]
    split
    · exact ih _
    · exact ⟨rfl, rfl, rfl⟩

/-- One turn of the loop: the entry at the expected index continues the assembled buffer. -/
theorem Safe.assemble (h : Safe S r) {e : Entry} (held : Held S e) (heq : e.1 = r.expectIdx) :
    Safe S { r with
      assemBuf := r.assemBuf ++ e.2
      expectIdx := r.expectIdx + e.2.length
      unassemBuf := r.unassemBuf.erase e.1 } := by
  refine ⟨h.output, ?_, ?_, fun a ha => h.stored a (SortedMap.mem_erase.mp ha).1⟩
  · refine h.assembled.append ?_
    rw [← h.expect, ← heq]
    exact held.excerpt
  · dsimp only
    rw [h.expect, List.length_append]
    omega

theorem assemLoop_safe {l : List Entry} (held : ∀ e ∈ l, Held S e) (h : Safe S r) :
    Safe S (assemLoop r l) := by
  induction l generalizing r with
  | nil => exact h
  | cons e l ih =>
    rw [assemLoop]
    split
    next heq =>
      exact ih (fun a ha => held a (List.mem_cons_of_mem _ ha))
        (h.assemble (held e List.mem_cons_self) heq)
    next => exact h

theorem assem_safe (h : Safe S r) : Safe S r.assem := by
  have hloop := assemLoop_safe h.stored h
  exact ⟨hloop.output, hloop.assembled, hloop.expect, hloop.stored⟩

theorem writeStr_safe (h : Safe S r) : Safe S r.writeStr where
  output := h.output.write h.assembled
  assembled := by
    show List.Excerpt S (r.output.write r.assemBuf).1.totalBytesWritten
      (r.assemBuf.drop (r.output.write r.assemBuf).2)
    rw [ByteStream.write_totalBytesWritten]
    exact h.assembled.drop _
  expect := by
    have hle := r.output.write_snd_le r.assemBuf
    show r.expectIdx = (r.output.write r.assemBuf).1.totalBytesWritten +
      (r.assemBuf.drop (r.output.write r.assemBuf).2).length
    rw [ByteStream.write_totalBytesWritten, List.length_drop, h.expect]
    omega
  stored := h.stored

theorem endOutput_safe (h : Safe S r) : Safe S r.endOutput := by
  unfold endOutput
  split
  · exact ⟨h.output.endInput, h.assembled, h.expect, h.stored⟩
  · exact h

/-- The first stage of a push notes the end index, if the end flag is set. -/
theorem noted_eq (r : StreamReassembler) (n : Nat) (eof : Bool) :
    (if eof then { r with eofIndex := n } else r) =
      { r with eofIndex := if eof then n else r.eofIndex } := by
  cases eof <;> rfl

/-- **A push of an excerpt is safe**, at any index and of any length. -/
theorem pushSubstring_safe (h : Safe S r) (next : List.Excerpt S index data)
    (inRange : index + data.length < 2 ^ 64) (eof : Bool) :
    Safe S (r.pushSubstring data index eof) := by
  have noted : Safe S (if eof then { r with eofIndex := add index data.length } else r) := by
    rw [noted_eq]
    exact ⟨h.output, h.assembled, h.expect, h.stored⟩
  exact endOutput_safe (writeStr_safe (assem_safe (fixCap_safe (pushUnassem_safe noted next inRange))))

/-! ## What a push leaves alone -/

/-- What the stages before the last two leave alone. -/
def SameFrame (r r' : StreamReassembler) : Prop :=
  r'.output = r.output ∧ r'.capacity = r.capacity ∧ r'.eofIndex = r.eofIndex

theorem SameFrame.trans {r r' r'' : StreamReassembler} (h : SameFrame r r') (h' : SameFrame r' r'') :
    SameFrame r r'' :=
  ⟨h'.1.trans h.1, h'.2.1.trans h.2.1, h'.2.2.trans h.2.2⟩

theorem pushUnassem_sameFrame (r : StreamReassembler) (data : Bytes) (index : Nat) :
    SameFrame r (r.pushUnassem data index) := by
  rw [pushUnassem_frame]
  exact ⟨rfl, rfl, rfl⟩

theorem fixCap_sameFrame (r : StreamReassembler) : SameFrame r r.fixCap := by
  rw [fixCap_frame]
  exact ⟨rfl, rfl, rfl⟩

theorem assem_sameFrame (r : StreamReassembler) : SameFrame r r.assem :=
  assemLoop_frame r r.unassemBuf.entries

/-- A push ends by writing and perhaps ending; before that it touches neither the output nor the
capacity, and it sets the end index only for a substring with the end flag. -/
theorem pushSubstring_eq (r : StreamReassembler) (data : Bytes) (index : Nat) (eof : Bool) :
    ∃ before : StreamReassembler,
      r.pushSubstring data index eof = before.writeStr.endOutput ∧ before.output = r.output ∧
      before.capacity = r.capacity ∧
      before.eofIndex = if eof then add index data.length else r.eofIndex := by
  refine ⟨_, rfl, ?_⟩
  obtain ⟨houtput, hcapacity, heof⟩ :=
    ((pushUnassem_sameFrame (if eof then { r with eofIndex := add index data.length } else r)
      data index).trans (fixCap_sameFrame _)).trans (assem_sameFrame _)
  rw [houtput, hcapacity, heof]
  cases eof with
  | false => exact ⟨rfl, rfl, rfl⟩
  | true => exact ⟨rfl, rfl, rfl⟩

/-- The last stage only sets the end flag. -/
theorem endOutput_frame (r : StreamReassembler) :
    r.endOutput = { r with output := { r.output with isEnd := r.endOutput.output.isEnd } } := by
  unfold endOutput
  split <;> rfl

theorem endOutput_isEnd (r : StreamReassembler) :
    r.endOutput.output.isEnd = true ↔
      r.output.isEnd = true ∨ r.assemBuf.length = 0 ∧ r.expectIdx = r.eofIndex := by
  unfold endOutput
  split
  next h => exact ⟨fun _ => .inr h, fun _ => rfl⟩
  next h => exact ⟨.inl, fun hc => hc.resolve_right h⟩

section Frame

variable (r : StreamReassembler) (data : Bytes) (index : Nat) (eof : Bool)

/-- A push never moves the reader. -/
theorem pushSubstring_totalBytesRead :
    (r.pushSubstring data index eof).output.totalBytesRead = r.output.totalBytesRead := by
  obtain ⟨before, heq, houtput, -, -⟩ := pushSubstring_eq r data index eof
  rw [heq, endOutput_frame, ← houtput]
  exact ByteStream.write_totalBytesRead _ _

theorem pushSubstring_capacity : (r.pushSubstring data index eof).capacity = r.capacity := by
  obtain ⟨before, heq, -, hcapacity, -⟩ := pushSubstring_eq r data index eof
  rw [heq, endOutput_frame]
  exact hcapacity

theorem pushSubstring_eofIndex :
    (r.pushSubstring data index eof).eofIndex =
      if eof then add index data.length else r.eofIndex := by
  obtain ⟨before, heq, -, -, heof⟩ := pushSubstring_eq r data index eof
  rw [heq, endOutput_frame]
  exact heof

/-- An output that has ended stays as it is. -/
theorem pushSubstring_of_end {r : StreamReassembler} (ended : r.output.isEnd = true) :
    (r.pushSubstring data index eof).output = r.output := by
  obtain ⟨before, heq, houtput, -, -⟩ := pushSubstring_eq r data index eof
  have hwrite : before.writeStr.output = r.output := by
    rw [writeStr, houtput, ByteStream.write_of_end _ ended]
  have hend : before.writeStr.endOutput.output.isEnd = r.output.isEnd := by
    rw [ended, endOutput_isEnd, hwrite]
    exact .inl ended
  rw [heq, endOutput_frame]
  dsimp only
  rw [hend, hwrite]

/-- A push only adds to the bytes written. -/
theorem pushSubstring_written_le :
    r.output.totalBytesWritten ≤ (r.pushSubstring data index eof).output.totalBytesWritten := by
  obtain ⟨before, heq, houtput, -, -⟩ := pushSubstring_eq r data index eof
  rw [heq, endOutput_frame, ← houtput]
  show _ ≤ (before.output.write before.assemBuf).1.totalBytesWritten
  rw [ByteStream.write_totalBytesWritten]
  exact Nat.le_add_right _ _

/-- What a push adds to the bytes written it adds to the bytes buffered. -/
theorem pushSubstring_output : ∃ n,
    (r.pushSubstring data index eof).output.totalBytesWritten = r.output.totalBytesWritten + n ∧
      (r.pushSubstring data index eof).output.buf.length = r.output.buf.length + n ∧
      (r.pushSubstring data index eof).output.cap = r.output.cap := by
  obtain ⟨before, heq, houtput, -, -⟩ := pushSubstring_eq r data index eof
  have hle := before.output.write_snd_le before.assemBuf
  rw [heq, endOutput_frame, ← houtput]
  refine ⟨(before.output.write before.assemBuf).2, ByteStream.write_totalBytesWritten _ _, ?_,
    ByteStream.write_cap _ _⟩
  show (before.output.write before.assemBuf).1.buf.length = _
  rw [ByteStream.write_buf_take, List.length_append, List.length_take, Nat.min_eq_left hle]

/-- An output that a push ends had ended before, or has been written up to the end index. -/
theorem pushSubstring_isEnd :
    (r.pushSubstring data index eof).output.isEnd = true ↔
      r.output.isEnd = true ∨ (r.pushSubstring data index eof).assemBuf.length = 0 ∧
        (r.pushSubstring data index eof).expectIdx = (r.pushSubstring data index eof).eofIndex := by
  obtain ⟨before, heq, houtput, -, -⟩ := pushSubstring_eq r data index eof
  rw [heq, endOutput_isEnd, ← houtput,
    show before.writeStr.output.isEnd = before.output.isEnd from ByteStream.write_isEnd _ _,
    endOutput_frame before.writeStr]

end Frame

/-! ## The end of the stream -/

/-- The end index is the stream's length, if it is set; and an ended output is complete. -/
structure EndsWell (S : Bytes) (r : StreamReassembler) : Prop where
  noted : r.eofIndex = S.length ∨ r.eofIndex = 2 ^ 64 - 1
  ended : r.output.isEnd = true → r.output.totalBytesWritten = S.length

theorem endsWell_new (S : Bytes) (capacity : Nat) : EndsWell S (new capacity) :=
  ⟨.inr rfl, nofun⟩

/-- A push keeps it when its end flag, if set, is at the end of the stream. -/
theorem EndsWell.push (h : EndsWell S r) (short : S.length < 2 ^ 63) {eof : Bool}
    (safe : Safe S (r.pushSubstring data index eof))
    (atEnd : eof = true → index + data.length = S.length) :
    EndsWell S (r.pushSubstring data index eof) := by
  have hnoted : (r.pushSubstring data index eof).eofIndex = S.length ∨
      (r.pushSubstring data index eof).eofIndex = 2 ^ 64 - 1 := by
    rw [pushSubstring_eofIndex]
    split
    next heof =>
      left
      rw [add_eq (by have := atEnd heof; omega), atEnd heof]
    next => exact h.noted
  refine ⟨hnoted, fun hend => ?_⟩
  have hwithin := safe.output.within
  have hexpect := safe.expect
  rcases (pushSubstring_isEnd r data index eof).mp hend with hold | ⟨hdrained, hmeet⟩
  · have hall := h.ended hold
    have hgrow := pushSubstring_written_le r data index eof
    omega
  · rw [hdrained] at hexpect
    omega

end StreamReassembler

end Sponge
