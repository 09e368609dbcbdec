import Sponge.Laws.Stream.Reassembler
import Sponge.Tcp.Receiver

/-!
# Laws.Tcp.Receiver — the receiver keeps step with the stream it is sent

`Carved S isn i seg` says that a conformant peer may send `seg`: its payload is the stream `S` from
index `i` on, and its flags and sequence number say so. `Started S isn r` is what the receiver keeps
once the SYN is in, for carved segments in any order, whether or not they fit its window: the
reassembler is safe for `S`, the acknowledgment number counts the bytes written (and the FIN, once it
is consumed), and the number after the FIN is right. Each stage of `segmentReceived` keeps it.

The window cut only shortens the payload (`cutToWindow_eq_take`), so nothing here depends on where
the window lies. `cutToWindow_eq` says exactly when it keeps the whole payload.
-/

namespace Sponge

open Word64 (add sub add_eq sub_eq)

namespace TCPSegment

/-- A segment of length zero carries nothing. -/
theorem blank_of_length (seg : TCPSegment) (blank : seg.lengthInSequenceSpace = 0) :
    seg.payload.str = [] ∧ seg.header.syn = false ∧ seg.header.fin = false := by
  unfold lengthInSequenceSpace at blank
  refine ⟨List.length_eq_zero_iff.mp (by omega), ?_, ?_⟩
  · by_contra hsyn
    rw [if_pos (eq_true_of_ne_false hsyn)] at blank
    omega
  · by_contra hfin
    rw [if_pos (eq_true_of_ne_false hfin)] at blank
    omega

/-- The absolute sequence number of a segment whose payload starts at stream index `i`. -/
def absSeqno (seg : TCPSegment) (i : Nat) : Nat := if seg.header.syn then 0 else i + 1

end TCPSegment

/-- A segment a conformant peer may send: its payload is `S` from index `i` on. -/
structure Carved (S : Bytes) (isn : WrappingInt32) (i : Nat) (seg : TCPSegment) : Prop where
  excerpt : List.Excerpt S i seg.payload.str
  within : i + seg.payload.str.length ≤ S.length
  seqno : seg.header.seqno = if seg.header.syn then isn else wrap (i + 1) isn
  synFirst : seg.header.syn = true → i = 0
  finLast : seg.header.fin = true → i + seg.payload.str.length = S.length

instance (S : Bytes) (isn : WrappingInt32) (i : Nat) (seg : TCPSegment) :
    Decidable (Carved S isn i seg) :=
  decidable_of_iff (List.Excerpt S i seg.payload.str ∧ i + seg.payload.str.length ≤ S.length ∧
      (seg.header.seqno = if seg.header.syn then isn else wrap (i + 1) isn) ∧
      (seg.header.syn = true → i = 0) ∧
      (seg.header.fin = true → i + seg.payload.str.length = S.length))
    ⟨fun ⟨a, b, c, d, e⟩ => ⟨a, b, c, d, e⟩, fun ⟨a, b, c, d, e⟩ => ⟨a, b, c, d, e⟩⟩

namespace Carved

variable {S : Bytes} {isn : WrappingInt32} {i : Nat} {seg : TCPSegment}

theorem seqno_eq (h : Carved S isn i seg) : seg.header.seqno = wrap (seg.absSeqno i) isn := by
  rw [h.seqno, TCPSegment.absSeqno]
  cases seg.header.syn with
  | false => rfl
  | true => exact (wrap_zero isn).symm

/-- Where a segment ends in sequence space. -/
theorem stop_eq (h : Carved S isn i seg) :
    seg.absSeqno i + seg.lengthInSequenceSpace =
      i + 1 + seg.payload.str.length + if seg.header.fin then 1 else 0 := by
  have hsyn := h.synFirst
  unfold TCPSegment.absSeqno TCPSegment.lengthInSequenceSpace
  cases hs : seg.header.syn with
  | false => simp only [Bool.false_eq_true, if_false]; omega
  | true => simp only [if_true, hsyn hs]; omega

theorem stop_le (h : Carved S isn i seg) :
    seg.absSeqno i + seg.lengthInSequenceSpace ≤ S.length + 2 := by
  have hwithin := h.within
  rw [h.stop_eq]
  split <;> omega

/-- The receiver finds the segment's place from any acknowledgment number of the stream. -/
theorem unwrap_seqno (h : Carved S isn i seg) (short : S.length < 2 ^ 30) {checkpoint : Nat}
    (near : checkpoint ≤ S.length + 2) :
    unwrap seg.header.seqno isn checkpoint = seg.absSeqno i := by
  have hstop := h.stop_le
  rw [h.seqno_eq]
  exact unwrap_wrap isn (by omega) (by omega) (by omega)

end Carved

namespace TCPReceiver

variable {S : Bytes} {isn : WrappingInt32} {r : TCPReceiver} {i : Nat} {seg : TCPSegment}

/-- The receiver before its first segment. -/
structure Fresh (S : Bytes) (r : TCPReceiver) : Prop where
  noSyn : r.receivedSyn = false
  noFin : r.receivedFin = false
  safe : StreamReassembler.Safe S r.reassembler
  nothing : r.reassembler.output.totalBytesWritten = 0

/-- The receiver once the SYN is in. -/
structure Started (S : Bytes) (isn : WrappingInt32) (r : TCPReceiver) : Prop where
  syn : r.receivedSyn = true
  isn_eq : r.isn = isn
  receiving : r.state = .synReceive ∨ r.state = .finReceive
  safe : StreamReassembler.Safe S r.reassembler
  acked : r.ackNo64 = 1 + r.reassembler.output.totalBytesWritten ∨
    r.ackNo64 = 2 + r.reassembler.output.totalBytesWritten ∧
      r.reassembler.output.totalBytesWritten = S.length ∧ r.receivedFin = true
  last : r.receivedFin = true → r.lastNo = S.length + 2

theorem fresh_new (S : Bytes) (capacity : Nat) : Fresh S (new capacity) :=
  ⟨rfl, rfl, StreamReassembler.safe_new S capacity, rfl⟩

theorem Fresh.popOutput (h : Fresh S r) (len : Nat) : Fresh S (r.popOutput len) :=
  ⟨h.noSyn, h.noFin, h.safe.popOutput len, h.nothing⟩

theorem Started.popOutput (h : Started S isn r) (len : Nat) : Started S isn (r.popOutput len) :=
  ⟨h.syn, h.isn_eq, h.receiving, h.safe.popOutput len, h.acked, h.last⟩

/-- A stream that grows keeps the receiver in step, as long as no FIN fixed its end. -/
theorem Started.extend (h : Started S isn r) {T : Bytes} (still : r.receivedFin = true → T = []) :
    Started (S ++ T) isn r := by
  refine ⟨h.syn, h.isn_eq, h.receiving, h.safe.extend T, ?_, fun hfin => ?_⟩
  · rcases h.acked with hack | ⟨hack, hall, hfin⟩
    · exact .inl hack
    · rw [still hfin, List.append_nil]
      exact .inr ⟨hack, hall, hfin⟩
  · rw [still hfin, List.append_nil]
    exact h.last hfin

theorem Fresh.extend (h : Fresh S r) (T : Bytes) : Fresh (S ++ T) r :=
  ⟨h.noSyn, h.noFin, h.safe.extend T, h.nothing⟩

theorem Started.ackNo64_le (h : Started S isn r) : r.ackNo64 ≤ S.length + 2 := by
  have hwithin := h.safe.output.within
  rcases h.acked with hack | ⟨hack, -, -⟩ <;> omega

/-! ## What each stage leaves alone -/

section Frame

variable (r : TCPReceiver) (seg : TCPSegment)

theorem acceptSyn_reassembler : (r.acceptSyn seg).reassembler = r.reassembler := by
  unfold acceptSyn
  split <;> rfl

theorem acceptSyn_capacity : (r.acceptSyn seg).capacity = r.capacity := by
  unfold acceptSyn
  split <;> rfl

theorem acceptSyn_receivedFin : (r.acceptSyn seg).receivedFin = r.receivedFin := by
  unfold acceptSyn
  split <;> rfl

/-- Later SYN flags change nothing. -/
theorem acceptSyn_of_syn {r : TCPReceiver} (syn : r.receivedSyn = true) : r.acceptSyn seg = r := by
  rw [acceptSyn, if_neg]
  rw [syn]
  exact fun hc => Bool.noConfusion hc.1

theorem acceptSyn_of_noSyn {seg : TCPSegment} (noSyn : seg.header.syn = false) : r.acceptSyn seg = r := by
  rw [acceptSyn, if_neg]
  rw [noSyn]
  exact fun hc => Bool.noConfusion hc.2

theorem advance_reassembler (pushed : StreamReassembler) :
    (r.advance pushed).reassembler = pushed := rfl

/-- What the payload stage is: nothing, or one push of the cut payload. -/
theorem acceptPayload_eq :
    r.acceptPayload seg = r ∨
      r.acceptPayload seg = r.advance
        (r.reassembler.pushSubstring (r.cutToWindow seg) (r.pushIndex seg) seg.header.fin) := by
  unfold acceptPayload
  split
  · split
    · exact .inr rfl
    · exact .inl rfl
  · exact .inl rfl

/-- Without payload there is nothing to push. -/
theorem acceptPayload_of_nil {seg : TCPSegment} (nil : seg.payload.str = []) : r.acceptPayload seg = r := by
  unfold acceptPayload
  rw [Buffer.copy_eq, nil]
  exact ite_id _

/-- Once the SYN is in, a payload is pushed. -/
theorem acceptPayload_of_payload {r : TCPReceiver} {seg : TCPSegment}
    (receiving : r.state = .synReceive ∨ r.state = .finReceive) (nonempty : seg.payload.str ≠ []) :
    r.acceptPayload seg = r.advance
      (r.reassembler.pushSubstring (r.cutToWindow seg) (r.pushIndex seg) seg.header.fin) := by
  unfold acceptPayload
  rw [if_pos receiving, if_pos]
  rw [Buffer.copy_eq]
  exact List.length_pos_iff.mpr nonempty

/-- The payload stage touches the reassembler and the acknowledgment number only. -/
theorem acceptPayload_frame :
    r.acceptPayload seg = { r with
      reassembler := (r.acceptPayload seg).reassembler, ackNo64 := (r.acceptPayload seg).ackNo64 } := by
  rcases acceptPayload_eq r seg with heq | heq
  · rw [heq]
  · rw [heq]
    generalize r.reassembler.pushSubstring (r.cutToWindow seg) (r.pushIndex seg) seg.header.fin = pushed
    rfl

theorem acceptPayload_receivedFin : (r.acceptPayload seg).receivedFin = r.receivedFin := by
  rw [acceptPayload_frame]

/-- Noting a FIN touches the state and the number after the FIN only. -/
theorem noteFin_frame :
    r.noteFin seg = { r with
      state := (r.noteFin seg).state
      lastNo := (r.noteFin seg).lastNo
      receivedFin := (r.noteFin seg).receivedFin } := by
  unfold noteFin
  split <;> rfl

theorem noteFin_reassembler : (r.noteFin seg).reassembler = r.reassembler := by
  rw [noteFin_frame]

theorem noteFin_capacity : (r.noteFin seg).capacity = r.capacity := by
  rw [noteFin_frame]

theorem noteFin_receivedFin :
    (r.noteFin seg).receivedFin = (r.receivedFin || seg.header.fin) := by
  unfold noteFin
  cases seg.header.fin with
  | false => exact (Bool.or_false _).symm
  | true => exact (Bool.or_true _).symm

/-- Consuming the FIN moves the acknowledgment number only. -/
theorem consumeFin_frame : r.consumeFin = { r with ackNo64 := r.consumeFin.ackNo64 } := by
  unfold consumeFin
  split <;> rfl

theorem consumeFin_reassembler : r.consumeFin.reassembler = r.reassembler := by
  rw [consumeFin_frame]

/-- Ending the stream sets the output's end flag only. -/
theorem endStream_frame :
    r.endStream = { r with
      reassembler := { r.reassembler with
        output := { r.reassembler.output with isEnd := r.endStream.reassembler.output.isEnd } } } := by
  unfold endStream
  split <;> rfl

end Frame

/-! ## The SYN -/

/-- The first segment starts the receiver. -/
theorem acceptSyn_fresh (h : Fresh S r) (carved : Carved S isn i seg) (syn : seg.header.syn = true) :
    Started S isn (r.acceptSyn seg) := by
  have hseqno : seg.header.seqno = isn := by rw [carved.seqno, if_pos syn]
  rw [acceptSyn, if_pos ⟨h.noSyn, syn⟩, unwrap_self]
  refine ⟨rfl, hseqno, .inl rfl, h.safe, .inl ?_, fun hfin => ?_⟩
  · show add 0 1 = 1 + r.reassembler.output.totalBytesWritten
    rw [h.nothing]
    rfl
  · rw [h.noFin] at hfin
    cases hfin

/-! ## The payload -/

/-- The window cut shortens the payload at its end. -/
theorem cutToWindow_eq_take (r : TCPReceiver) (seg : TCPSegment) :
    ∃ n, r.cutToWindow seg = seg.payload.str.take n := by
  unfold cutToWindow
  dsimp only
  split
  · exact ⟨_, rfl⟩
  · exact ⟨_, (List.take_length).symm⟩

/-- The window keeps a payload when its right edge, in 64 bits, is past the payload. It also keeps
one that starts beyond the edge: the cut is then a wrapped difference that exceeds every length. -/
def Keeps (r : TCPReceiver) (i : Nat) (seg : TCPSegment) : Prop :=
  let rightBound := add (if r.receivedSyn then r.ackNo64 else 1) r.windowSize
  rightBound < seg.absSeqno i ∨ seg.absSeqno i + seg.payload.str.length ≤ rightBound

instance (r : TCPReceiver) (i : Nat) (seg : TCPSegment) : Decidable (r.Keeps i seg) :=
  inferInstanceAs (Decidable (_ ∨ _))

/-- The window a segment meets does not depend on whether the SYN stage has run. -/
theorem acceptSyn_keepsWindow (h : Fresh S r ∧ seg.header.syn = true ∨ Started S isn r) :
    (r.acceptSyn seg).Keeps i seg ↔ r.Keeps i seg := by
  have hwindow : (r.acceptSyn seg).windowSize = r.windowSize := by
    unfold windowSize streamOut
    rw [acceptSyn_reassembler, acceptSyn_capacity]
  rcases h with ⟨hfresh, syn⟩ | hstarted
  · have hack : (r.acceptSyn seg).receivedSyn = true ∧ (r.acceptSyn seg).ackNo64 = 1 := by
      rw [acceptSyn, if_pos ⟨hfresh.noSyn, syn⟩]
      refine ⟨rfl, ?_⟩
      dsimp only
      rw [unwrap_self]
      rfl
    unfold Keeps
    rw [hwindow, hack.1, hack.2, hfresh.noSyn]
    rfl
  · rw [acceptSyn_of_syn seg hstarted.syn]

theorem cutToWindow_eq (h : Started S isn r) (carved : Carved S isn i seg)
    (short : S.length < 2 ^ 30) (keeps : r.Keeps i seg) : r.cutToWindow seg = seg.payload.str := by
  have hstop := carved.stop_le
  have hlen : seg.payload.str.length ≤ seg.lengthInSequenceSpace := by
    unfold TCPSegment.lengthInSequenceSpace
    omega
  unfold Keeps at keeps
  rw [if_pos h.syn] at keeps
  unfold cutToWindow
  dsimp only
  have hend : add (seg.absSeqno i) seg.lengthInSequenceSpace =
      seg.absSeqno i + seg.lengthInSequenceSpace := add_eq (by omega)
  rw [h.isn_eq, carved.unwrap_seqno short h.ackNo64_le, hend]
  have hedge := Word64.add_lt r.ackNo64 r.windowSize
  set edge := add r.ackNo64 r.windowSize
  split
  next hcut =>
    rw [Buffer.copy_eq, List.take_of_length_le]
    rw [sub_eq (Nat.le_of_lt hcut) (by omega)]
    unfold sub
    omega
  next => rfl

/-- The payload is pushed at its own stream index. -/
theorem pushIndex_eq (h : Started S isn r) (carved : Carved S isn i seg)
    (short : S.length < 2 ^ 30) : r.pushIndex seg = i := by
  have hwithin := carved.within
  unfold pushIndex
  rw [h.isn_eq, carved.unwrap_seqno short h.ackNo64_le, TCPSegment.absSeqno]
  cases hs : seg.header.syn with
  | true => exact (carved.synFirst hs).symm
  | false =>
    simp only [Bool.false_eq_true, if_false]
    rw [sub_eq (by omega) (by omega), Nat.add_sub_cancel]

theorem Started.advance_ackNo64 (h : Started S isn r) {pushed : StreamReassembler}
    (safe : StreamReassembler.Safe S pushed) (short : S.length < 2 ^ 30) :
    (r.advance pushed).ackNo64 = r.ackNo64 +
      (pushed.output.totalBytesWritten - r.reassembler.output.totalBytesWritten) := by
  have hmax := safe.output.within
  have hle := h.ackNo64_le
  unfold TCPReceiver.advance ByteStream.bytesWritten streamOut
  exact add_eq (by omega)

/-- The acknowledgment number moves with the bytes written. -/
theorem Started.advance (h : Started S isn r) {pushed : StreamReassembler}
    (safe : StreamReassembler.Safe S pushed) (short : S.length < 2 ^ 30)
    (grows : r.reassembler.output.totalBytesWritten ≤ pushed.output.totalBytesWritten) :
    Started S isn (r.advance pushed) := by
  have hmax := safe.output.within
  refine ⟨h.syn, h.isn_eq, h.receiving, safe, ?_, h.last⟩
  rw [h.advance_ackNo64 safe short, advance_reassembler]
  rcases h.acked with hack | ⟨hack, hall, hfin⟩
  · exact .inl (by omega)
  · exact .inr ⟨by omega, by omega, hfin⟩

/-- The push of the payload stage is safe. -/
theorem push_safe (h : Started S isn r) (carved : Carved S isn i seg) (short : S.length < 2 ^ 30) :
    StreamReassembler.Safe S
      (r.reassembler.pushSubstring (r.cutToWindow seg) i seg.header.fin) := by
  have hwithin := carved.within
  obtain ⟨n, hn⟩ := cutToWindow_eq_take r seg
  rw [hn]
  refine StreamReassembler.pushSubstring_safe h.safe (carved.excerpt.take n) ?_ _
  rw [List.length_take]
  omega

/-- What the payload stage does: nothing to a segment without payload, else one push. -/
theorem acceptPayload_cases (h : Started S isn r) (carved : Carved S isn i seg)
    (short : S.length < 2 ^ 30) :
    seg.payload.str = [] ∧ r.acceptPayload seg = r ∨
      seg.payload.str ≠ [] ∧ r.acceptPayload seg =
        r.advance (r.reassembler.pushSubstring (r.cutToWindow seg) i seg.header.fin) := by
  by_cases hnil : seg.payload.str = []
  · exact .inl ⟨hnil, acceptPayload_of_nil r hnil⟩
  · refine .inr ⟨hnil, ?_⟩
    rw [acceptPayload_of_payload h.receiving hnil, pushIndex_eq h carved short]

/-- **The payload stage keeps step.** -/
theorem acceptPayload_started (h : Started S isn r) (carved : Carved S isn i seg)
    (short : S.length < 2 ^ 30) : Started S isn (r.acceptPayload seg) := by
  rcases acceptPayload_cases h carved short with ⟨-, heq⟩ | ⟨-, heq⟩
  · rw [heq]
    exact h
  · rw [heq]
    exact h.advance (push_safe h carved short) short
      (StreamReassembler.pushSubstring_written_le _ _ _ _)

/-! ## The FIN -/

theorem noteFin_started (h : Started S isn r) (carved : Carved S isn i seg)
    (short : S.length < 2 ^ 30) : Started S isn (r.noteFin seg) := by
  have hstop := carved.stop_eq
  have hle := carved.stop_le
  rw [noteFin]
  split
  next hfin =>
    refine ⟨h.syn, h.isn_eq, .inr rfl, h.safe, ?_, fun _ => ?_⟩
    · rcases h.acked with hack | ⟨hack, hall, -⟩
      · exact .inl hack
      · exact .inr ⟨hack, hall, rfl⟩
    · have hend := carved.finLast hfin
      show add (unwrap seg.header.seqno r.isn r.ackNo64) seg.lengthInSequenceSpace = S.length + 2
      rw [h.isn_eq, carved.unwrap_seqno short h.ackNo64_le, add_eq (by omega), hstop, if_pos hfin]
      omega
  next => exact h

/-- Consuming the FIN: it is acknowledged as soon as everything before it is written. -/
theorem consumeFin_started (h : Started S isn r) (short : S.length < 2 ^ 30) :
    Started S isn r.consumeFin ∧
      (r.receivedFin = true → r.reassembler.output.totalBytesWritten = S.length →
        r.consumeFin.ackNo64 = S.length + 2) := by
  have hle := h.ackNo64_le
  have hwithin := h.safe.output.within
  rw [consumeFin, add_eq (by omega)]
  split
  next hc =>
    have hlast := h.last hc.1
    refine ⟨⟨h.syn, h.isn_eq, h.receiving, h.safe, .inr ?_, h.last⟩, fun _ _ => hlast⟩
    dsimp only
    rcases h.acked with hack | ⟨hack, hall, -⟩
    · exact ⟨by omega, by omega, hc.1⟩
    · omega
  next hc =>
    refine ⟨h, fun hfin hall => ?_⟩
    have hlast := h.last hfin
    rcases h.acked with hack | ⟨hack, -, -⟩
    · exact absurd ⟨hfin, by omega⟩ hc
    · omega

theorem consumeFin_ackNo64_le (h : Started S isn r) (short : S.length < 2 ^ 30) :
    r.ackNo64 ≤ r.consumeFin.ackNo64 := by
  have hle := h.ackNo64_le
  rw [consumeFin, add_eq (by omega)]
  split
  next hc => exact Nat.le.intro hc.2
  next => exact Nat.le_refl _

theorem endStream_started (h : Started S isn r) : Started S isn r.endStream := by
  rw [endStream]
  split
  next => exact ⟨h.syn, h.isn_eq, h.receiving,
    ⟨h.safe.output.endInput, h.safe.assembled, h.safe.expect, h.safe.stored⟩, h.acked, h.last⟩
  next => exact h

/-- The receiver ends its output only when the whole stream is written. -/
theorem endStream_isEnd (h : Started S isn r) :
    r.endStream.reassembler.output.isEnd = true ↔
      r.reassembler.output.isEnd = true ∨ r.ackNo64 = S.length + 2 ∧ r.receivedFin = true := by
  rw [endStream]
  split
  next hc =>
    have hlast := h.last hc.2
    exact ⟨fun _ => .inr ⟨hc.1.trans hlast, hc.2⟩, fun _ => rfl⟩
  next hc =>
    exact ⟨.inl, fun he => he.resolve_right fun ⟨hack, hfin⟩ => hc ⟨hack.trans (h.last hfin).symm, hfin⟩⟩

/-! ## A whole segment -/

/-- The receiver with its SYN in: as it was, or started by this segment. -/
theorem acceptSyn_keeps (h : Fresh S r ∧ seg.header.syn = true ∨ Started S isn r)
    (carved : Carved S isn i seg) : Started S isn (r.acceptSyn seg) := by
  rcases h with ⟨hfresh, syn⟩ | hstarted
  · exact acceptSyn_fresh hfresh carved syn
  · rw [acceptSyn_of_syn seg hstarted.syn]
    exact hstarted

/-- **A carved segment keeps the receiver in step**, in any order and past any window. -/
theorem segmentReceived_started (h : Fresh S r ∧ seg.header.syn = true ∨ Started S isn r)
    (carved : Carved S isn i seg) (short : S.length < 2 ^ 30) :
    Started S isn (r.segmentReceived seg) := by
  have hsyn := acceptSyn_keeps h carved
  have hpayload := acceptPayload_started hsyn carved short
  have hfin := noteFin_started hpayload carved short
  exact endStream_started (consumeFin_started hfin short).1

/-- The acknowledgment number never goes back. -/
theorem segmentReceived_ackNo64_le (h : Started S isn r) (carved : Carved S isn i seg)
    (short : S.length < 2 ^ 30) : r.ackNo64 ≤ (r.segmentReceived seg).ackNo64 := by
  have hpayload : r.ackNo64 ≤ (r.acceptPayload seg).ackNo64 := by
    rcases acceptPayload_cases h carved short with ⟨-, heq⟩ | ⟨-, heq⟩
    · exact Nat.le_of_eq (congrArg ackNo64 heq.symm)
    · rw [heq, h.advance_ackNo64 (push_safe h carved short) short]
      exact Nat.le_add_right _ _
  have hnote : ((r.acceptPayload seg).noteFin seg).ackNo64 = (r.acceptPayload seg).ackNo64 := by
    rw [noteFin_frame]
  have hstarted := noteFin_started (acceptPayload_started h carved short) carved short
  have hconsume := consumeFin_ackNo64_le hstarted short
  unfold segmentReceived
  rw [acceptSyn_of_syn seg h.syn, endStream_frame]
  exact Nat.le_trans (hnote ▸ hpayload) hconsume

theorem segmentReceived_receivedFin (r : TCPReceiver) (seg : TCPSegment) :
    (r.segmentReceived seg).receivedFin = (r.receivedFin || seg.header.fin) := by
  unfold segmentReceived
  rw [endStream_frame]
  dsimp only
  rw [consumeFin_frame]
  dsimp only
  rw [noteFin_receivedFin, acceptPayload_receivedFin, acceptSyn_receivedFin]

/-- A segment does not touch what was read. -/
theorem segmentReceived_totalBytesRead (r : TCPReceiver) (seg : TCPSegment) :
    (r.segmentReceived seg).reassembler.output.totalBytesRead =
      r.reassembler.output.totalBytesRead := by
  have hpayload (r : TCPReceiver) : (r.acceptPayload seg).reassembler.output.totalBytesRead =
      r.reassembler.output.totalBytesRead := by
    rcases acceptPayload_eq r seg with heq | heq
    · rw [heq]
    · rw [heq, advance_reassembler]
      exact StreamReassembler.pushSubstring_totalBytesRead _ _ _ _
  unfold segmentReceived
  rw [endStream_frame]
  dsimp only
  rw [consumeFin_reassembler, noteFin_reassembler, hpayload, acceptSyn_reassembler]

/-- A segment that occupies no sequence number carries nothing and only looks for a consumable FIN. -/
theorem segmentReceived_blank (r : TCPReceiver) (blank : seg.lengthInSequenceSpace = 0) :
    r.segmentReceived seg = r.consumeFin.endStream := by
  obtain ⟨hpayload, hsyn, hfin⟩ := seg.blank_of_length blank
  have hthree : r.noteFin seg = r := by
    rw [noteFin, hfin, if_neg Bool.false_ne_true]
  rw [segmentReceived, acceptSyn_of_noSyn r hsyn, acceptPayload_of_nil r hpayload, hthree]

/-- Without a FIN there is nothing to consume and nothing to end. -/
theorem finish_of_noFin (noFin : r.receivedFin = false) : r.consumeFin.endStream = r := by
  have hconsume : r.consumeFin = r := by simp [consumeFin, noFin]
  rw [hconsume]
  simp [endStream, noFin]

theorem Fresh.blank (h : Fresh S r) (blank : seg.lengthInSequenceSpace = 0) :
    r.segmentReceived seg = r := by
  rw [segmentReceived_blank r blank, finish_of_noFin h.noFin]

theorem Started.blank (h : Started S isn r) (blank : seg.lengthInSequenceSpace = 0)
    (short : S.length < 2 ^ 30) :
    Started S isn (r.segmentReceived seg) ∧ r.ackNo64 ≤ (r.segmentReceived seg).ackNo64 := by
  rw [segmentReceived_blank r blank]
  refine ⟨endStream_started (consumeFin_started h short).1, ?_⟩
  rw [endStream_frame]
  exact consumeFin_ackNo64_le h short

/-! ## Any segment at all -/

/-- The output stream has the receiver's capacity. -/
def Sized (r : TCPReceiver) : Prop := r.streamOut.cap = r.capacity

theorem sized_new (capacity : Nat) : (new capacity).Sized := rfl

theorem Sized.windowSize_eq (sized : r.Sized) :
    r.windowSize + r.streamOut.buf.length = r.capacity := by
  have hfits := r.streamOut.fits
  rw [sized] at hfits
  unfold windowSize
  rw [ByteStream.bytesNotRead_eq]
  omega

theorem Sized.advance (sized : r.Sized) {pushed : StreamReassembler}
    (cap : pushed.output.cap = r.reassembler.output.cap) : (r.advance pushed).Sized :=
  cap.trans sized

/-- Taking over a push moves the acknowledgment number through the window. -/
theorem Sized.advance_grows (sized : r.Sized) {pushed : StreamReassembler} {n : Nat}
    (few : r.ackNo64 + r.windowSize < 2 ^ 64)
    (written : pushed.output.totalBytesWritten = r.reassembler.output.totalBytesWritten + n)
    (buf : pushed.output.buf.length = r.reassembler.output.buf.length + n)
    (cap : pushed.output.cap = r.reassembler.output.cap) :
    (r.advance pushed).ackNo64 = r.ackNo64 + n ∧
      (r.advance pushed).reassembler.output.totalBytesWritten =
        r.reassembler.output.totalBytesWritten + n ∧
      (r.advance pushed).windowSize + n = r.windowSize := by
  have hbefore : r.windowSize + r.reassembler.output.buf.length = r.capacity := sized.windowSize_eq
  have hafter : (r.advance pushed).windowSize + pushed.output.buf.length = r.capacity :=
    (sized.advance cap).windowSize_eq
  have hwindow : (r.advance pushed).windowSize + n = r.windowSize := by omega
  refine ⟨?_, written, hwindow⟩
  unfold TCPReceiver.advance ByteStream.bytesWritten streamOut
  rw [written, Nat.add_sub_cancel_left]
  exact add_eq (by omega)

/-- **The payload stage moves the acknowledgment number through the window**, by the bytes it writes. -/
theorem acceptPayload_grows (sized : r.Sized) (few : r.ackNo64 + r.windowSize < 2 ^ 64)
    (seg : TCPSegment) : ∃ n,
    (r.acceptPayload seg).ackNo64 = r.ackNo64 + n ∧
      (r.acceptPayload seg).reassembler.output.totalBytesWritten =
        r.reassembler.output.totalBytesWritten + n ∧
      (r.acceptPayload seg).windowSize + n = r.windowSize := by
  rcases acceptPayload_eq r seg with heq | heq
  · rw [heq]
    exact ⟨0, rfl, rfl, rfl⟩
  · obtain ⟨n, hwritten, hbuf, hcap⟩ := r.reassembler.pushSubstring_output (r.cutToWindow seg)
      (r.pushIndex seg) seg.header.fin
    rw [heq]
    exact ⟨n, sized.advance_grows few hwritten hbuf hcap⟩

theorem Sized.acceptPayload (sized : r.Sized) (seg : TCPSegment) : (r.acceptPayload seg).Sized := by
  rcases acceptPayload_eq r seg with heq | heq
  · rw [heq]
    exact sized
  · obtain ⟨n, -, -, hcap⟩ := r.reassembler.pushSubstring_output (r.cutToWindow seg)
      (r.pushIndex seg) seg.header.fin
    rw [heq]
    exact sized.advance hcap

/-- The right edge of the window, as an absolute sequence number. -/
def rightEdge (r : TCPReceiver) : Nat := r.ackNo64 + r.windowSize

/-- **The right edge never moves left**, whatever arrives behind the SYN. -/
theorem segmentReceived_rightEdge (sized : r.Sized) (syn : r.receivedSyn = true)
    (few : r.rightEdge + 1 < 2 ^ 64) (seg : TCPSegment) :
    r.rightEdge ≤ (r.segmentReceived seg).rightEdge := by
  unfold rightEdge at few ⊢
  obtain ⟨n, hack, -, hwindow⟩ := acceptPayload_grows sized (by omega) seg
  unfold segmentReceived
  rw [acceptSyn_of_syn seg syn, endStream_frame]
  generalize r.acceptPayload seg = paid at *
  have hnote : (paid.noteFin seg).ackNo64 = paid.ackNo64 ∧
      (paid.noteFin seg).windowSize = paid.windowSize := by
    rw [noteFin_frame]
    exact ⟨rfl, rfl⟩
  show _ ≤ (paid.noteFin seg).consumeFin.ackNo64 + (paid.noteFin seg).consumeFin.windowSize
  have hsame : (paid.noteFin seg).consumeFin.windowSize = (paid.noteFin seg).windowSize := by
    rw [consumeFin_frame]
    rfl
  rw [hsame, hnote.2]
  unfold consumeFin
  split
  next hc =>
    have hnext := hc.2
    rw [hnote.1, add_eq (by omega)] at hnext
    show _ ≤ (paid.noteFin seg).lastNo + paid.windowSize
    omega
  next => omega

theorem segmentReceived_frame (r : TCPReceiver) (seg : TCPSegment) :
    (r.segmentReceived seg).capacity = r.capacity ∧
      (r.segmentReceived seg).receivedSyn = (r.receivedSyn || seg.header.syn) := by
  unfold segmentReceived
  rw [endStream_frame]
  dsimp only
  rw [consumeFin_frame]
  dsimp only
  rw [noteFin_frame, acceptPayload_frame]
  refine ⟨acceptSyn_capacity r seg, ?_⟩
  unfold acceptSyn
  cases hsyn : r.receivedSyn <;> cases seg.header.syn <;> simp [hsyn]

/-- Behind the SYN the initial sequence number stays. -/
theorem segmentReceived_isn (syn : r.receivedSyn = true) (seg : TCPSegment) :
    (r.segmentReceived seg).isn = r.isn := by
  unfold segmentReceived
  rw [acceptSyn_of_syn seg syn, endStream_frame, consumeFin_frame, noteFin_frame, acceptPayload_frame]

/-- Reading moves the right edge by the bytes read. -/
theorem popOutput_rightEdge (r : TCPReceiver) (len : Nat) : r.rightEdge ≤ (r.popOutput len).rightEdge := by
  unfold rightEdge windowSize
  rw [ByteStream.bytesNotRead_eq, ByteStream.bytesNotRead_eq]
  show r.ackNo64 + _ ≤ r.ackNo64 + (r.capacity - (r.streamOut.popOutput len).buf.length)
  rw [ByteStream.popOutput_buf, List.length_drop]
  omega

/-- A segment leaves the output its capacity. -/
theorem Sized.segmentReceived (sized : r.Sized) (seg : TCPSegment) : (r.segmentReceived seg).Sized := by
  have hsyn : (r.acceptSyn seg).Sized := by
    unfold acceptSyn
    split <;> exact sized
  have hnote : (((r.acceptSyn seg).acceptPayload seg).noteFin seg).Sized := by
    rw [noteFin_frame]
    exact hsyn.acceptPayload seg
  unfold TCPReceiver.segmentReceived
  rw [Sized, endStream_frame, consumeFin_frame]
  exact hnote

/-- Whatever FIN there is to consume is consumed. -/
def Settled (r : TCPReceiver) : Prop := ¬(r.receivedFin = true ∧ add r.ackNo64 1 = r.lastNo)

theorem segmentReceived_settled (r : TCPReceiver) (seg : TCPSegment) :
    (r.segmentReceived seg).Settled := by
  unfold segmentReceived
  rw [Settled, endStream_frame]
  dsimp only
  generalize ((r.acceptSyn seg).acceptPayload seg).noteFin seg = noted
  unfold consumeFin
  split
  next hc =>
    rintro ⟨-, hnext⟩
    have hlt := Word64.add_lt noted.ackNo64 1
    rw [hc.2] at hlt
    simp only [add] at hnext
    omega
  next hc => exact hc

/-- A segment that occupies no sequence number leaves a settled receiver's number alone. -/
theorem Settled.blank (h : r.Settled) (blank : seg.lengthInSequenceSpace = 0) :
    (r.segmentReceived seg).ackno = r.ackno := by
  rw [segmentReceived_blank r blank, show r.consumeFin = r from if_neg h, endStream_frame]
  rfl

/-! ## Segments before the SYN -/

/-- What happens to a receiver: a segment arrives, or the reader reads. -/
inductive Event
  | segment (seg : TCPSegment)
  | read (len : Nat)

def handle (r : TCPReceiver) : Event → TCPReceiver
  | .segment seg => r.segmentReceived seg
  | .read len => r.popOutput len

/-- What a receiver shows its user. -/
structure Shown where
  ackno : Option WrappingInt32
  windowSize : Nat
  unassembledBytes : Nat
  buffered : Bytes
  inputEnded : Bool
deriving DecidableEq

def shown (r : TCPReceiver) : Shown where
  ackno := r.ackno
  windowSize := r.windowSize
  unassembledBytes := r.unassembledBytes
  buffered := r.streamOut.buf
  inputEnded := r.streamOut.inputEnded

/-- What it shows after each event of a list. -/
def trace (r : TCPReceiver) : List Event → List Shown
  | [] => []
  | e :: es => (r.handle e).shown :: trace (r.handle e) es

/-- A receiver that listens ignores a segment without SYN and FIN. -/
theorem segmentReceived_listen (listening : r.state = .listen) (noFin : r.receivedFin = false)
    (syn : seg.header.syn = false) (fin : seg.header.fin = false) : r.segmentReceived seg = r := by
  have hsyn : r.acceptSyn seg = r := by simp [acceptSyn, syn]
  have hpayload : r.acceptPayload seg = r := by simp [acceptPayload, listening]
  have hfin : r.noteFin seg = r := by simp [noteFin, fin]
  rw [segmentReceived, hsyn, hpayload, hfin, finish_of_noFin noFin]

/-- A new receiver is as new behind any number of them. -/
theorem foldl_early (capacity : Nat) {early : List TCPSegment}
    (plain : ∀ seg ∈ early, seg.header.syn = false ∧ seg.header.fin = false) :
    early.foldl segmentReceived (new capacity) = new capacity := by
  induction early with
  | nil => rfl
  | cons seg early ih =>
    obtain ⟨⟨hsyn, hfin⟩, hrest⟩ := List.forall_mem_cons.mp plain
    rw [List.foldl_cons, segmentReceived_listen rfl rfl hsyn hfin, ih hrest]

/-- **Segments before the SYN leave no trace, as long as none of them carries a FIN**: whatever
follows, the receiver shows after each event what a new one shows. -/
theorem early_traceless (capacity : Nat) {early : List TCPSegment} (rest : List Event)
    (noSyn : ∀ seg ∈ early, seg.header.syn = false) (noFin : ∀ seg ∈ early, seg.header.fin = false) :
    trace (early.foldl segmentReceived (new capacity)) rest = trace (new capacity) rest := by
  rw [foldl_early capacity fun seg hseg => ⟨noSyn seg hseg, noFin seg hseg⟩]

/-- A stray data segment, then a SYN with a byte on it and a read. -/
theorem early_traceless_stray :
    trace ([{ header := { seqno := ⟨5⟩, ack := true }, payload := Buffer.ofString [9] }].foldl
        segmentReceived (new 4))
        [.segment { header := { seqno := ⟨7⟩, syn := true }, payload := Buffer.ofString [1] }, .read 1] =
      trace (new 4)
        [.segment { header := { seqno := ⟨7⟩, syn := true }, payload := Buffer.ofString [1] }, .read 1] :=
  early_traceless 4 _ (by decide) (by decide)

/-- **A FIN before the SYN stays noted.** A stray FIN numbered zero ends the stream of the connection
that the next SYN opens. -/
theorem early_fin_ends :
    let early : List TCPSegment := [{ header := { seqno := ⟨0⟩, fin := true } }]
    let first : TCPSegment := { header := { seqno := ⟨7⟩, syn := true } }
    (∀ seg ∈ early, seg.header.syn = false ∧ seg.header.rst = false) ∧ first.header.syn = true ∧
      trace (early.foldl segmentReceived (new 4)) [.segment first] ≠
        trace (new 4) [.segment first] := by
  decide +kernel

end TCPReceiver

end Sponge
