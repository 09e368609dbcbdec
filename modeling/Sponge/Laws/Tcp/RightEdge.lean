import Sponge.Laws.Tcp.Strays

/-!
# Laws.Tcp.RightEdge — segments at the right edge of the window

The cut at the right edge subtracts unsigned lengths. Across the edge it keeps what lies below it
(`cutToWindow_below`), at the edge nothing, and beyond the edge everything (`Outside.cut_eq`).

So a segment at the edge or beyond it leaves no trace when it has no payload, or starts right at the edge,
or carries nothing new; and even then two things show, bytes that the push writes because they had to wait,
and an end that the FIN brings. `Dropped` says when neither does, and is exact for these segments
(`edge_respected`). A payload beyond the edge that is new is kept.
-/

namespace Sponge

open Word64 (add sub add_eq sub_eq)

namespace TCPReceiver

variable {r : TCPReceiver} {seg : TCPSegment} {capacity : Nat}

/-- The stream index of the segment's first byte of payload, as the source counts: a SYN puts it at `0`. -/
def payloadIndex (r : TCPReceiver) (seg : TCPSegment) : Nat :=
  if seg.header.syn then 0 else unwrap seg.header.seqno r.isn r.ackNo64 - 1

/-- A segment at the right edge or beyond it, behind the SYN. -/
structure Outside (r : TCPReceiver) (seg : TCPSegment) : Prop where
  syn : r.receivedSyn = true
  started : 0 < r.ackNo64
  few : r.rightEdge < 2 ^ 63
  short : seg.payload.str.length < 2 ^ 62
  beyond : r.rightEdge ≤ unwrap seg.header.seqno r.isn r.ackNo64

/-- The end of a segment near the window is a 64-bit number. -/
theorem stop_lt (few : r.rightEdge < 2 ^ 63) (short : seg.payload.str.length < 2 ^ 62) :
    unwrap seg.header.seqno r.isn r.ackNo64 + seg.lengthInSequenceSpace < 2 ^ 64 := by
  have hack : r.ackNo64 ≤ r.rightEdge := Nat.le_add_right _ _
  have hnear := unwrap_near seg.header.seqno r.isn (show r.ackNo64 < 2 ^ 64 - 2 ^ 31 by omega)
  unfold TCPSegment.lengthInSequenceSpace
  split <;> split <;> omega

/-- **Beyond the right edge the cut keeps everything**: it takes a wrapped difference. -/
theorem cutToWindow_beyond
    (stop : unwrap seg.header.seqno r.isn r.ackNo64 + seg.lengthInSequenceSpace < 2 ^ 64)
    (beyond : r.rightEdge < unwrap seg.header.seqno r.isn r.ackNo64) :
    r.cutToWindow seg = seg.payload.str := by
  have hlen : seg.payload.str.length ≤ seg.lengthInSequenceSpace := by
    unfold TCPSegment.lengthInSequenceSpace
    omega
  have hedge : add r.ackNo64 r.windowSize = r.rightEdge :=
    add_eq (show r.rightEdge < 2 ^ 64 by omega)
  unfold cutToWindow
  dsimp only
  rw [hedge, add_eq stop, Buffer.copy_eq, if_pos (by omega), List.take_of_length_le]
  rw [sub_eq (by omega) stop]
  unfold sub
  omega

namespace Outside

/-- What is pushed: nothing right at the edge, everything beyond it. -/
theorem cut_eq (h : Outside r seg) :
    r.cutToWindow seg =
      if unwrap seg.header.seqno r.isn r.ackNo64 = r.rightEdge then [] else seg.payload.str := by
  have hstop := stop_lt h.few h.short
  have hfew := h.few
  have hbeyond := h.beyond
  split
  next hedge => rw [cutToWindow_below (by omega) hstop (by omega), hedge, Nat.sub_self, List.take_zero]
  next hedge => exact cutToWindow_beyond hstop (by omega)

theorem cut_length_le (h : Outside r seg) : (r.cutToWindow seg).length ≤ seg.payload.str.length := by
  rw [h.cut_eq]
  split
  · exact Nat.zero_le _
  · exact Nat.le_refl _

theorem index_eq (h : Outside r seg) : r.pushIndex seg = r.payloadIndex seg := by
  have hstop := stop_lt h.few h.short
  have hack : r.ackNo64 ≤ r.rightEdge := Nat.le_add_right _ _
  have hstarted := h.started
  have hbeyond := h.beyond
  unfold pushIndex payloadIndex
  rw [sub_eq (by omega) (by omega)]

theorem index_lt (h : Outside r seg) : r.payloadIndex seg + seg.payload.str.length < 2 ^ 64 := by
  have hstop := stop_lt h.few h.short
  have hlen : seg.payload.str.length ≤ seg.lengthInSequenceSpace := by
    unfold TCPSegment.lengthInSequenceSpace
    omega
  unfold payloadIndex
  split <;> omega

theorem paid_eq (h : Outside r seg) (kept : Kept capacity r) (nonempty : seg.payload.str ≠ []) :
    r.acceptPayload seg = r.advance (r.reassembler.pushSubstring (r.cutToWindow seg) (r.payloadIndex seg)
      seg.header.fin) := by
  rw [acceptPayload_of_payload (kept.receiving h.syn) nonempty, h.index_eq]

end Outside

/-- A payload stage that shows nothing, and a FIN that is not the next to consume: nothing shows. -/
theorem Kept.unseen (h : Kept capacity r) (syn : r.receivedSyn = true) (open_ : r.streamOut.isEnd = false)
    {pushed : StreamReassembler} (paid : r.acceptPayload seg = { r with reassembler := pushed })
    (output : pushed.output = r.reassembler.output)
    (size : pushed.unassemSize = r.reassembler.unassemSize)
    (ahead : seg.header.fin = true → r.ackNo64 + 1 <
      add (unwrap seg.header.seqno r.isn r.ackNo64) seg.lengthInSequenceSpace) :
    (r.segmentReceived seg).unassembledBytes = r.unassembledBytes ∧
      (r.segmentReceived seg).streamOut = r.streamOut := by
  have hfinish : ((r.acceptPayload seg).noteFin seg).consumeFin.endStream =
      (r.acceptPayload seg).noteFin seg := by
    rw [paid]
    unfold noteFin
    split
    next hfin =>
      have hahead := ahead hfin
      have hnext : add r.ackNo64 1 ≤ r.ackNo64 + 1 := Nat.mod_le _ _
      refine finish_of_settled (fun hc => ?_) fun hc => ?_
      · have hmeet : add r.ackNo64 1 =
          add (unwrap seg.header.seqno r.isn r.ackNo64) seg.lengthInSequenceSpace := hc.2
        omega
      · have hmeet : r.ackNo64 =
          add (unwrap seg.header.seqno r.isn r.ackNo64) seg.lengthInSequenceSpace := hc.1
        omega
    next => exact finish_of_settled h.settled (h.unmet open_)
  unfold segmentReceived unassembledBytes streamOut
  rw [acceptSyn_of_syn seg syn, hfinish, noteFin_reassembler, paid]
  exact ⟨size, output⟩

/-! ## Segments that carry nothing new -/

/-- Nothing of the segment is pushed that is not assembled already. -/
def Stale (r : TCPReceiver) (seg : TCPSegment) : Prop :=
  seg.payload.str = [] ∨ unwrap seg.header.seqno r.isn r.ackNo64 = r.rightEdge ∨
    r.payloadIndex seg + seg.payload.str.length ≤ r.reassembler.expectIdx

instance (r : TCPReceiver) (seg : TCPSegment) : Decidable (r.Stale seg) :=
  inferInstanceAs (Decidable (_ ∨ _ ∨ _))

/-- Such a segment leaves no trace: without payload, its FIN is not the next to consume; with payload, no
byte waits that the output would take, and its FIN does not meet the expected index. -/
def Dropped (r : TCPReceiver) (seg : TCPSegment) : Prop :=
  let absSeq := unwrap seg.header.seqno r.isn r.ackNo64
  (seg.payload.str = [] → ¬(seg.header.fin = true ∧ seg.header.syn = false ∧ absSeq = r.ackNo64)) ∧
    (seg.payload.str ≠ [] → r.reassembler.Flushed ∧
      ¬(seg.header.fin = true ∧ r.reassembler.assemBuf = [] ∧
        r.payloadIndex seg + (if absSeq = r.rightEdge then 0 else seg.payload.str.length) =
          r.reassembler.expectIdx))

instance (r : TCPReceiver) (seg : TCPSegment) : Decidable (r.Dropped seg) :=
  inferInstanceAs (Decidable ((_ → ¬(_ ∧ _ ∧ _)) ∧ (_ → _ ∧ ¬(_ ∧ _ ∧ _))))

/-- An output that the payload stage ends stays so. -/
theorem segmentReceived_ended (syn : r.receivedSyn = true)
    (ended : (r.acceptPayload seg).reassembler.output.isEnd = true) :
    (r.segmentReceived seg).streamOut.isEnd = true := by
  unfold segmentReceived streamOut
  rw [acceptSyn_of_syn seg syn]
  have hkept : ((r.acceptPayload seg).noteFin seg).consumeFin.reassembler.output.isEnd = true := by
    rw [consumeFin_reassembler, noteFin_reassembler]
    exact ended
  unfold endStream
  split
  · rfl
  · exact hkept

namespace Outside

/-- A payload makes a push, and the push writes what waits. -/
theorem writes_waiting (h : Outside r seg) (kept : Kept capacity r) (nonempty : seg.payload.str ≠ [])
    (waiting : ¬r.reassembler.Flushed) :
    r.streamOut.bytesWritten < (r.segmentReceived seg).streamOut.bytesWritten := by
  rw [segmentReceived_written h.syn, h.paid_eq kept nonempty, advance_reassembler]
  exact StreamReassembler.push_writes waiting _ _ _

theorem bare_iff (h : Outside r seg) (kept : Kept capacity r) (open_ : r.streamOut.isEnd = false)
    (nil : seg.payload.str = []) :
    ((r.segmentReceived seg).unassembledBytes = r.unassembledBytes ∧
      (r.segmentReceived seg).streamOut = r.streamOut) ↔
    ¬(seg.header.fin = true ∧ seg.header.syn = false ∧
      unwrap seg.header.seqno r.isn r.ackNo64 = r.ackNo64) := by
  have hstop := stop_lt h.few h.short
  have hack : r.ackNo64 ≤ r.rightEdge := Nat.le_add_right _ _
  have hbeyond := h.beyond
  have hpaid := acceptPayload_of_nil r nil
  constructor
  · rintro ⟨-, hsame⟩ ⟨hfin, hnoSyn, hnext⟩
    have hlen : seg.lengthInSequenceSpace = 1 := by
      rw [TCPSegment.lengthInSequenceSpace, nil, hnoSyn, hfin]
      rfl
    have hended : (r.segmentReceived seg).streamOut.isEnd = true := by
      unfold segmentReceived
      rw [acceptSyn_of_syn seg h.syn, hpaid, noteFin, if_pos hfin, hnext, hlen, consumeFin, if_pos ⟨rfl, rfl⟩,
        endStream, if_pos ⟨rfl, rfl⟩]
      rfl
    rw [hsame, open_] at hended
    cases hended
  · intro hnot
    refine kept.unseen h.syn open_ hpaid rfl rfl fun hfin => ?_
    rw [add_eq hstop]
    unfold TCPSegment.lengthInSequenceSpace at hstop ⊢
    rw [hfin, if_pos rfl]
    cases hsyn : seg.header.syn with
    | true =>
      rw [if_pos rfl]
      omega
    | false =>
      have hne : unwrap seg.header.seqno r.isn r.ackNo64 ≠ r.ackNo64 := fun hc => hnot ⟨hfin, hsyn, hc⟩
      rw [if_neg Bool.false_ne_true]
      omega

/-- A push that carries nothing new leaves the output and the count alone, unless its FIN ends the output. -/
theorem push_quiet (h : Outside r seg) (small : capacity < 2 ^ 63) (kept : Kept capacity r)
    (stale : unwrap seg.header.seqno r.isn r.ackNo64 = r.rightEdge ∨
      r.payloadIndex seg + seg.payload.str.length ≤ r.reassembler.expectIdx)
    (flushed : r.reassembler.Flushed)
    (quiet : ¬(seg.header.fin = true ∧ r.reassembler.assemBuf = [] ∧
      r.payloadIndex seg + (r.cutToWindow seg).length = r.reassembler.expectIdx)) :
    ∃ pushed, r.reassembler.pushSubstring (r.cutToWindow seg) (r.payloadIndex seg) seg.header.fin = pushed ∧
      pushed.output = r.reassembler.output ∧ pushed.unassemSize = r.reassembler.unassemSize := by
  have hlt := h.index_lt
  rw [h.cut_eq] at quiet ⊢
  split at quiet
  next hedge =>
    have hshort : ∀ e ∈ r.reassembler.unassemBuf.entries, e.2.length < 2 ^ 64 := fun e he => by
      have hle := kept.rested.trimmed.length_le he
      rw [kept.cap] at hle
      omega
    obtain ⟨buf, hpush, -⟩ := kept.rested.push_nil flushed hshort
      (show r.payloadIndex seg < 2 ^ 64 by omega) fun hfin hnone hmeet =>
        absurd ⟨hfin, List.length_eq_zero_iff.mp hnone, hmeet.symm⟩ quiet
    rw [if_pos hedge]
    exact ⟨_, hpush, rfl, rfl⟩
  next hedge =>
    have hknown := stale.resolve_left hedge
    rw [if_neg hedge, StreamReassembler.pushSubstring_of_known (by rw [add_eq hlt]; exact hknown),
      kept.rested.noteEnd flushed]
    have hend : ∀ n, (n = r.reassembler.eofIndex ∨ ¬(r.reassembler.assemBuf.length = 0 ∧
        r.reassembler.expectIdx = n)) → { r.reassembler with eofIndex := n }.endOutput =
          { r.reassembler with eofIndex := n } := by
      rintro n (rfl | hnot)
      · exact kept.rested.endOutput_eq
      · exact if_neg hnot
    rw [hend]
    · exact ⟨_, rfl, rfl, rfl⟩
    · split
      next hfin =>
        refine .inr fun ⟨hnone, hmeet⟩ => quiet ⟨hfin, List.length_eq_zero_iff.mp hnone, ?_⟩
        rw [hmeet, add_eq hlt]
      next => exact .inl rfl

/-- **A payload that carries nothing new**: exactly when it shows nothing. -/
theorem stale_iff (h : Outside r seg) (small : capacity < 2 ^ 63) (kept : Kept capacity r)
    (open_ : r.streamOut.isEnd = false) (nonempty : seg.payload.str ≠ [])
    (stale : unwrap seg.header.seqno r.isn r.ackNo64 = r.rightEdge ∨
      r.payloadIndex seg + seg.payload.str.length ≤ r.reassembler.expectIdx) :
    ((r.segmentReceived seg).unassembledBytes = r.unassembledBytes ∧
      (r.segmentReceived seg).streamOut = r.streamOut) ↔
    r.reassembler.Flushed ∧ ¬(seg.header.fin = true ∧ r.reassembler.assemBuf = [] ∧
      r.payloadIndex seg + (r.cutToWindow seg).length = r.reassembler.expectIdx) := by
  have hpaid := h.paid_eq kept nonempty
  constructor
  · rintro ⟨-, hsame⟩
    have hflushed : r.reassembler.Flushed := by
      by_contra hwaits
      have hmore := h.writes_waiting kept nonempty hwaits
      rw [hsame] at hmore
      exact Nat.lt_irrefl _ hmore
    refine ⟨hflushed, fun ⟨hfin, hnone, hmeet⟩ => ?_⟩
    have hstop : add (r.payloadIndex seg) (r.cutToWindow seg).length = r.reassembler.expectIdx := by
      have hlt := h.index_lt
      have hcut := h.cut_length_le
      rw [add_eq (by omega), hmeet]
    have hended : (r.acceptPayload seg).reassembler.output.isEnd = true := by
      rw [hpaid, advance_reassembler, StreamReassembler.pushSubstring_of_known (Nat.le_of_eq hstop),
        kept.rested.noteEnd hflushed, StreamReassembler.endOutput_isEnd, hfin, if_pos rfl, hstop]
      exact .inr ⟨List.length_eq_zero_iff.mpr hnone, rfl⟩
    have hlater := segmentReceived_ended h.syn hended
    rw [hsame, open_] at hlater
    cases hlater
  · rintro ⟨hflushed, hquiet⟩
    obtain ⟨pushed, hpush, houtput, hsize⟩ := h.push_quiet small kept stale hflushed hquiet
    rw [hpush, advance_of_same kept.ack64 (congrArg ByteStream.totalBytesWritten houtput)] at hpaid
    refine kept.unseen h.syn open_ hpaid houtput hsize fun hfin => ?_
    have hstop := stop_lt h.few h.short
    have hack : r.ackNo64 ≤ r.rightEdge := Nat.le_add_right _ _
    have hbeyond := h.beyond
    have hpos := List.length_pos_iff.mpr nonempty
    rw [add_eq hstop]
    unfold TCPSegment.lengthInSequenceSpace
    rw [hfin, if_pos rfl]
    omega

/-- **A segment that carries nothing new leaves no trace exactly when it is dropped.** -/
theorem dropped_iff (h : Outside r seg) (small : capacity < 2 ^ 63) (kept : Kept capacity r)
    (open_ : r.streamOut.isEnd = false) (stale : r.Stale seg) :
    ((r.segmentReceived seg).unassembledBytes = r.unassembledBytes ∧
      (r.segmentReceived seg).streamOut = r.streamOut) ↔ r.Dropped seg := by
  by_cases hnil : seg.payload.str = []
  · rw [h.bare_iff kept open_ hnil]
    exact ⟨fun hquiet => ⟨fun _ => hquiet, fun hne => absurd hnil hne⟩, fun hdropped => hdropped.1 hnil⟩
  · have hlen : (r.cutToWindow seg).length =
        if unwrap seg.header.seqno r.isn r.ackNo64 = r.rightEdge then 0 else seg.payload.str.length := by
      rw [h.cut_eq]
      split <;> rfl
    rw [h.stale_iff small kept open_ hnil (stale.resolve_left hnil), hlen]
    exact ⟨fun hquiet => ⟨fun hc => absurd hc hnil, fun _ => hquiet⟩, fun hdropped => hdropped.2 hnil⟩

/-! ## Segments beyond the edge that carry something new -/

theorem cut_beyond (h : Outside r seg)
    (past : r.rightEdge < unwrap seg.header.seqno r.isn r.ackNo64) : r.cutToWindow seg = seg.payload.str := by
  rw [h.cut_eq, if_neg (Nat.ne_of_gt past)]

/-- **Ahead of the expected index a payload beyond the edge is stored**, here where nothing else is. -/
theorem stores_beyond (h : Outside r seg) (kept : Kept capacity r) (nonempty : seg.payload.str ≠ [])
    (past : r.rightEdge < unwrap seg.header.seqno r.isn r.ackNo64)
    (gap : r.reassembler.expectIdx < r.payloadIndex seg)
    (vacant : r.reassembler.unassemBuf.entries = []) (room : r.reassembler.assemBuf.length < capacity) :
    (r.segmentReceived seg).unassembledBytes =
      min seg.payload.str.length (capacity - r.reassembler.assemBuf.length) := by
  have hlt := h.index_lt
  have hstored := StreamReassembler.push_vacant vacant (show seg.payload.str.length < 2 ^ 64 by omega) gap
    (by rw [add_eq hlt]; omega) (by rw [kept.cap]; exact room) seg.header.fin
  rw [kept.cap] at hstored
  unfold unassembledBytes
  rw [segmentReceived_bytes h.syn, h.paid_eq kept nonempty, h.cut_beyond past, advance_reassembler]
  exact hstored

/-- **A payload beyond the edge that reaches the expected index is assembled**, and is written if the output
has room. -/
theorem writes_beyond (h : Outside r seg) (kept : Kept capacity r) (open_ : r.streamOut.isEnd = false)
    (nonempty : seg.payload.str ≠ [])
    (past : r.rightEdge < unwrap seg.header.seqno r.isn r.ackNo64)
    (reached : r.payloadIndex seg ≤ r.reassembler.expectIdx)
    (new : r.reassembler.expectIdx < r.payloadIndex seg + seg.payload.str.length)
    (ahead : r.reassembler.Ahead) (room : r.reassembler.assemBuf.length < capacity)
    (window : r.windowSize ≠ 0) :
    r.streamOut.bytesWritten < (r.segmentReceived seg).streamOut.bytesWritten := by
  by_cases hflushed : r.reassembler.Flushed
  · have hfree : r.reassembler.output.buf.length + 0 < r.reassembler.output.cap := by
      have hwindow : r.windowSize + r.reassembler.output.buf.length = r.capacity := kept.sized.windowSize_eq
      have hsized : r.reassembler.output.cap = r.capacity := kept.sized
      omega
    have hnone : r.reassembler.assemBuf = [] := by
      rcases hflushed with hnone | hend | hfull
      · exact hnone
      · exact absurd (open_.symm.trans hend) Bool.false_ne_true
      · exact absurd hfull (Nat.ne_of_lt hfree)
    obtain ⟨moved, hmoved, hassembled⟩ := ahead.push_reached reached h.index_lt new
      (by rw [kept.cap]; exact room) seg.header.fin
    have hmore : (r.reassembler.output.write []).1.totalBytesWritten <
        (r.reassembler.output.write ([] ++ moved)).1.totalBytesWritten :=
      StreamReassembler.write_append_lt open_ hfree (List.length_pos_iff.mpr hmoved)
    rw [segmentReceived_written h.syn, h.paid_eq kept nonempty, h.cut_beyond past, advance_reassembler,
      hassembled, hnone]
    rwa [ByteStream.write_of_full _ (.inl rfl)] at hmore
  · exact h.writes_waiting kept nonempty hflushed

end Outside

/-- **A segment across the right edge is cut there**: what is pushed is the part below the edge, and no index
at the edge or beyond it is covered that was not. -/
theorem Kept.straddle (h : Kept capacity r) (small : capacity < 2 ^ 63) (syn : r.receivedSyn = true)
    (few : r.rightEdge < 2 ^ 63) (noSyn : seg.header.syn = false)
    (short : seg.payload.str.length < 2 ^ 62) {absSeq : Nat}
    (place : unwrap seg.header.seqno r.isn r.ackNo64 = absSeq) (indexed : 0 < absSeq)
    (below : absSeq < r.rightEdge) (across : r.rightEdge < absSeq + seg.lengthInSequenceSpace) :
    let pushed := r.reassembler.pushSubstring (seg.payload.str.take (r.rightEdge - absSeq)) (absSeq - 1)
      seg.header.fin
    (r.segmentReceived seg).reassembler = { pushed with
        output := { pushed.output with isEnd := (r.segmentReceived seg).streamOut.isEnd } } ∧
      ∀ n, r.rightEdge ≤ n + 1 →
        StreamReassembler.Covers (r.segmentReceived seg).reassembler.unassemBuf n →
        StreamReassembler.Covers r.reassembler.unassemBuf n := by
  have hstop : unwrap seg.header.seqno r.isn r.ackNo64 + seg.lengthInSequenceSpace < 2 ^ 64 :=
    stop_lt few short
  have hne : seg.payload.str ≠ [] := by
    intro hnil
    unfold TCPSegment.lengthInSequenceSpace at across
    rw [hnil, noSyn, List.length_nil, if_neg Bool.false_ne_true] at across
    split at across <;> omega
  have hcut : r.cutToWindow seg = seg.payload.str.take (r.rightEdge - absSeq) := by
    rw [cutToWindow_below (by omega) hstop (by omega), place]
  have hindex : r.pushIndex seg = absSeq - 1 := by
    unfold pushIndex
    rw [noSyn, if_neg Bool.false_ne_true, place, sub_eq (by omega) (by omega)]
  have hpast : ∀ n, r.rightEdge ≤ n + 1 →
      StreamReassembler.Covers (r.reassembler.pushSubstring (seg.payload.str.take (r.rightEdge - absSeq))
        (absSeq - 1) seg.header.fin).unassemBuf n →
      StreamReassembler.Covers r.reassembler.unassemBuf n := by
    intro n hn hcovers
    have hlen : (seg.payload.str.take (r.rightEdge - absSeq)).length ≤ r.rightEdge - absSeq :=
      List.length_take_le _ _
    refine StreamReassembler.push_covers_past (show _ ≤ r.rightEdge - 1 by omega) (by omega) ?_
      (show r.rightEdge - 1 ≤ n by omega) hcovers
    intro e he hlow
    have hle := h.rested.trimmed.length_le he
    rw [h.cap] at hle
    omega
  have hpaid := acceptPayload_of_payload (h.receiving syn) hne
  have hbytes := segmentReceived_bytes syn seg
  rw [hpaid, hcut, hindex] at hbytes
  generalize r.reassembler.pushSubstring (seg.payload.str.take (r.rightEdge - absSeq)) (absSeq - 1)
    seg.header.fin = pushed at *
  refine ⟨hbytes, fun n hn hcovers => hpast n hn ?_⟩
  rw [hbytes] at hcovers
  exact hcovers

end TCPReceiver

end Sponge
