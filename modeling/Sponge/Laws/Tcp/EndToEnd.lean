import Sponge.Laws.Tcp.Receiver
import Sponge.Laws.Tcp.Window

/-!
# Laws.Tcp.EndToEnd — a sender, a receiver and two unreliable channels

A `Link` is a sender and a receiver that talk through two channels. The data channel holds every
segment the sender ever queued, the other one every acknowledgment the receiver ever advertised.
Delivering takes a message without removing it, so messages are lost, repeated and reordered freely.

The stream the receiver is in step with is not what the application wrote but what the sender has
sent of it, `sentBytes`: it grows as the sender sends, and it stops growing with the FIN. `Joined`
holds both ends to it. Before the SYN arrives there is no acknowledgment, so the sender's window is
the one it started with, and everything it has sent is the bare SYN.
-/

namespace Sponge

/-- The payload bytes of the segments sent, in order. -/
def sentBytes (log : List TCPSegment) : Bytes := log.flatMap (·.payload.str)

section Sent

variable {T : Bytes} {isn : WrappingInt32} {log new : List TCPSegment} {s s' : TCPSender}

theorem sentBytes_append (log new : List TCPSegment) :
    sentBytes (log ++ new) = sentBytes log ++ sentBytes new :=
  List.flatMap_append

theorem length_sentBytes_le (log : List TCPSegment) : (sentBytes log).length ≤ seqLen log := by
  induction log with
  | nil => exact Nat.le_refl 0
  | cons seg log ih =>
    have hseg : seg.payload.str.length ≤ seg.lengthInSequenceSpace := by
      unfold TCPSegment.lengthInSequenceSpace
      omega
    rw [seqLen_cons, sentBytes, List.flatMap_cons, List.length_append]
    exact Nat.add_le_add hseg ih

theorem Accounts.length_sentBytes (h : Accounts T isn log s) :
    (sentBytes log).length = s.stream.totalBytesRead := by
  have hwritten := h.carries.written
  have hwhole := h.whole
  rw [sentBytes, h.payloads, List.length_take]
  omega

/-- Every segment on the books is carved from the bytes sent. -/
theorem Accounts.carved (h : Accounts T isn log s) {p : Nat × TCPSegment} (hp : p ∈ number 0 log) :
    Carved (sentBytes log) isn (p.1 - 1) p.2 := by
  have hsent := h.each p hp
  have hread := h.length_sentBytes
  have hcounts := h.counts
  have hstart : s.synSent = true := by
    by_contra hc
    rw [h.unsent (eq_false_of_ne_true hc)] at hp
    cases hp
  refine ⟨?_, hread ▸ hsent.within, ?_, fun hsyn => ?_, fun hfin => ?_⟩
  · rw [sentBytes, h.payloads]
    exact hsent.excerpt.of_take hsent.within
  · rw [hsent.seqno]
    split
    next hsyn => rw [hsent.syn.mp hsyn, wrap_zero]
    next hsyn =>
      have hpos : p.1 ≠ 0 := fun hzero => hsyn (hsent.syn.mpr hzero)
      congr 1
      omega
  · rw [hsent.syn.mp hsyn]
  · obtain ⟨hfinSent, hend⟩ := hsent.fin hfin
    rw [hread]
    rw [hcounts, hstart, hfinSent, TCPSegment.lengthInSequenceSpace, if_pos hfin] at hend
    simp only [if_true] at hend
    by_cases hsyn : p.2.header.syn = true
    · rw [if_pos hsyn, hsent.syn.mp hsyn] at hend
      rw [hsent.syn.mp hsyn]
      omega
    · have hpos : p.1 ≠ 0 := fun hzero => hsyn (hsent.syn.mpr hzero)
      rw [if_neg hsyn] at hend
      omega

/-- Behind a FIN no byte is sent. -/
theorem Accounts.sentBytes_new (h : Accounts T isn log s) {T' : Bytes}
    (h' : Accounts T' isn (log ++ new) s') (fin : ∃ seg ∈ log, seg.header.fin = true) :
    sentBytes new = [] := by
  obtain ⟨seg, hseg, hfin⟩ := fin
  obtain ⟨x, hx⟩ := exists_number (a := 0) hseg
  have hend := ((h.each _ hx).fin hfin).2
  have hx' : (x, seg) ∈ number 0 (log ++ new) := by
    rw [number_append]
    exact List.mem_append_left _ hx
  have hend' := ((h'.each _ hx').fin hfin).2
  have hlen := length_sentBytes_le new
  rw [h.total] at hend
  rw [h'.total, seqLen_append] at hend'
  exact List.length_eq_zero_iff.mp (by omega)

/-- Everything the sender queued is carved from the bytes sent, or carries nothing. While the window is the
first one, which has room for one number, it is the SYN. -/
theorem Accounts.channel (h : Accounts T isn log s) {seg : TCPSegment} (queued : seg ∈ s.segmentsOut) :
    seg.lengthInSequenceSpace = 0 ∨ seg ∈ log ∧ (∃ i, Carved (sentBytes log) isn i seg) ∧
      (s.Reaches 1 → seg.header.syn = true) := by
  rcases h.outs seg queued with hlog | hblank
  · by_cases hblank : seg.lengthInSequenceSpace = 0
    · exact .inl hblank
    · obtain ⟨x, hx⟩ := exists_number (a := 0) hlog
      refine .inr ⟨hlog, ⟨_, h.carved hx⟩, fun first => ?_⟩
      have hbelow := first.below
      have hend : x + seg.lengthInSequenceSpace ≤ 0 + seqLen log := (number_bounds hx).2.1
      have htotal := h.total
      exact (h.each _ hx).syn.mpr (by omega)
  · exact .inl hblank

/-- A receiver in step with what was sent acknowledges nothing that was not. -/
theorem Accounts.ackNo64_le (h : Accounts T isn log s) {r : TCPReceiver}
    (started : TCPReceiver.Started (sentBytes log) isn r) (begun : log ≠ [])
    (fin : r.receivedFin = true → ∃ seg ∈ log, seg.header.fin = true) : r.ackNo64 ≤ s.nextSeqno := by
  have hwithin := started.safe.output.within
  have hsyn : s.synSent = true := by
    by_contra hc
    exact begun (h.unsent (eq_false_of_ne_true hc))
  rw [h.counts, if_pos hsyn]
  rw [h.length_sentBytes] at hwithin
  rcases started.acked with hack | ⟨hack, -, hfin⟩
  · omega
  · obtain ⟨seg, hseg, hflag⟩ := fin hfin
    obtain ⟨x, hx⟩ := exists_number (a := 0) hseg
    rw [if_pos ((h.each _ hx).fin hflag).1]
    omega

end Sent

/-! ## One step of the sender -/

theorem TCPSender.fillWindow_ackedNext {s : TCPSender} (finLast : s.FinLast) :
    s.fillWindow.ackedNext = s.ackedNext := by
  obtain ⟨new, -, -, hsame⟩ :=
    TCPSender.fillLoop_rule (P := fun _ t => t.FinLast ∧ t.ackedNext = s.ackedNext)
      (fun _ _ h => h.1) (fun _ _ _ _ h _ hsend => ⟨TCPSender.send_finLast hsend, h.2⟩)
      (s.fillBound + 1) [] ⟨finLast, rfl⟩
  exact hsame

namespace Sending

variable {isn : WrappingInt32} {s : Sending}

/-- The log only grows. -/
theorem step_log (s : Sending) (op : Op) : ∃ new, (s.step op).log = s.log ++ new := by
  cases op with
  | write data => exact ⟨[], (List.append_nil _).symm⟩
  | endInput => exact ⟨[], (List.append_nil _).symm⟩
  | fillWindow => exact ⟨_, rfl⟩
  | ack ackno windowSize => exact ⟨_, rfl⟩
  | tick ms => exact ⟨[], (List.append_nil _).symm⟩
  | sendEmpty => exact ⟨[], (List.append_nil _).symm⟩

/-- Only an acknowledgment moves the first number not acknowledged, and not past its own number. -/
theorem Kept.step_ackedNext (h : Kept isn s) (op : Op) (inRange : s.sender.nextSeqno < 2 ^ 64) :
    (s.step op).sender.ackedNext = s.sender.ackedNext ∨
      ∃ ackno windowSize, op = .ack ackno windowSize ∧
        (s.step op).sender.ackedNext ≤ s.absAckno ackno := by
  cases op with
  | write data => exact .inl rfl
  | endInput => exact .inl rfl
  | fillWindow => exact .inl (TCPSender.fillWindow_ackedNext h.finLast)
  | ack ackno windowSize =>
    show (s.sender.ackReceived ackno windowSize).ackedNext = _ ∨ ∃ ackno' windowSize',
      _ ∧ (s.sender.ackReceived ackno windowSize).ackedNext ≤ _
    rw [TCPSender.ackReceived_eq]
    split
    · exact .inl rfl
    · rw [TCPSender.fillWindow_ackedNext (h.acceptAck inRange _ windowSize).finLast]
      obtain ⟨⟨popped, -, hacked, hbelow⟩, -, -⟩ := h.acceptAck_cases inRange
        (unwrap ackno s.sender.isn s.sender.ackedNext) windowSize
      rcases hbelow with rfl | hbelow
      · exact .inl hacked
      · exact .inr ⟨ackno, windowSize, rfl, hbelow⟩
  | tick ms =>
    left
    show (s.sender.tick ms).ackedNext = _
    rw [TCPSender.tick_frame]
  | sendEmpty => exact .inl rfl

/-- Without an acknowledgment the right edge stays. -/
theorem step_edge (s : Sending) {op : Op} (quiet : ∀ ackno windowSize, op ≠ .ack ackno windowSize) :
    (s.step op).edge = s.edge := by
  cases op with
  | ack ackno windowSize => exact absurd rfl (quiet ackno windowSize)
  | _ => rfl

theorem timely_of_quiet (s : Sending) {op : Op}
    (quiet : ∀ ackno windowSize, op ≠ .ack ackno windowSize) : Timely s op := by
  cases op with
  | ack ackno windowSize => exact absurd rfl (quiet ackno windowSize)
  | _ => trivial

end Sending

/-! ## The two ends -/

/-- A sender and a receiver, the bytes read from the receiver, and the acknowledgments advertised. The
data channel is the sender's own queue, which nothing drains. -/
structure Link where
  sending : Sending
  receiver : TCPReceiver
  readLog : Bytes
  acks : List (WrappingInt32 × UInt16)

namespace Link

/-- What can happen: something to the sender, a segment arrives, an acknowledgment is advertised, or
the reader reads. -/
inductive Op
  | sender (op : Sending.Op)
  | deliver (seg : TCPSegment)
  | advertise
  | read (len : Nat)

def new (sendCapacity recvCapacity : Nat) (retxTimeout : UInt16) (isn : WrappingInt32) : Link :=
  ⟨Sending.new sendCapacity retxTimeout isn, TCPReceiver.new recvCapacity, [], []⟩

/-- One operation. `field` puts a window size into the 16 bits of a header. -/
def step (field : Nat → UInt16) (l : Link) : Op → Link
  | .sender op => { l with sending := l.sending.step op }
  | .deliver seg => { l with receiver := l.receiver.segmentReceived seg }
  | .advertise =>
    { l with
      acks := l.acks ++ (l.receiver.ackno.map fun ackno => (ackno, field l.receiver.windowSize)).toList }
  | .read len =>
    { l with
      receiver := l.receiver.popOutput len
      readLog := l.readLog ++ (l.receiver.streamOut.read len).2 }

/-- The channels deliver only what was put into them. -/
def Delivers (l : Link) : Op → Prop
  | .sender (.ack ackno windowSize) => (ackno, windowSize) ∈ l.acks
  | .deliver seg => seg ∈ l.sending.sender.segmentsOut
  | _ => True

instance (l : Link) : ∀ op, Decidable (Delivers l op)
  | .sender (.ack _ _) => inferInstanceAs (Decidable (_ ∈ _))
  | .deliver _ => inferInstanceAs (Decidable (_ ∈ _))
  | .sender (.write _) | .sender .endInput | .sender .fillWindow | .sender (.tick _)
  | .sender .sendEmpty | .advertise | .read _ => inferInstanceAs (Decidable True)

/-- Before the SYN arrives: nothing is acknowledged, and the window is the initial one. -/
structure Waiting (l : Link) : Prop where
  fresh : TCPReceiver.Fresh (sentBytes l.sending.log) l.receiver
  silent : l.acks = []
  within : l.sending.Within
  noEdge : l.sending.edge = 0
  unacked : l.sending.sender.ackedNext = 0

/-- Since the SYN arrived: the receiver is in step with what was sent, and ahead of the sender. -/
structure Talking (isn : WrappingInt32) (l : Link) : Prop where
  started : TCPReceiver.Started (sentBytes l.sending.log) isn l.receiver
  begun : l.sending.log ≠ []
  acked : l.sending.sender.ackedNext ≤ l.receiver.ackNo64

/-- What the two ends and the channels keep together. -/
structure Joined (isn : WrappingInt32) (l : Link) : Prop where
  kept : l.sending.Kept isn
  phase : Waiting l ∨ Talking isn l
  fin : l.receiver.receivedFin = true → ∃ seg ∈ l.sending.log, seg.header.fin = true
  acks : ∀ a ∈ l.acks, ∃ x ≤ l.receiver.ackNo64, a.1 = wrap x isn
  log : l.readLog = (sentBytes l.sending.log).take l.receiver.reassembler.output.totalBytesRead

variable {isn : WrappingInt32} {l : Link} {field : Nat → UInt16}

theorem joined_new (sendCapacity recvCapacity : Nat) (retxTimeout : UInt16) (isn : WrappingInt32) :
    Joined isn (new sendCapacity recvCapacity retxTimeout isn) where
  kept := accounts_new sendCapacity retxTimeout isn
  phase := .inl ⟨TCPReceiver.fresh_new _ _, rfl, ⟨Nat.le_refl 1, fun _ => Nat.le_refl 1⟩, rfl, rfl⟩
  fin := nofun
  acks := nofun
  log := rfl

theorem Joined.safe (h : Joined isn l) :
    StreamReassembler.Safe (sentBytes l.sending.log) l.receiver.reassembler :=
  h.phase.elim (·.fresh.safe) (·.started.safe)

theorem Joined.short (h : Joined isn l) (few : l.sending.sender.nextSeqno < 2 ^ 30) :
    (sentBytes l.sending.log).length < 2 ^ 30 := by
  have hlen := length_sentBytes_le l.sending.log
  rw [← h.kept.total] at hlen
  omega

/-- The receiver acknowledges nothing that was not sent. -/
theorem Joined.ackNo64_le (h : Joined isn l) (talking : Talking isn l) :
    l.receiver.ackNo64 ≤ l.sending.sender.nextSeqno :=
  h.kept.ackNo64_le talking.started talking.begun h.fin

/-- An advertised acknowledgment reaches the sender as a number the receiver is past. -/
theorem Joined.absAckno_le (h : Joined isn l) (talking : Talking isn l)
    (few : l.sending.sender.nextSeqno < 2 ^ 30) {ackno : WrappingInt32} {windowSize : UInt16}
    (advertised : (ackno, windowSize) ∈ l.acks) :
    l.sending.absAckno ackno ≤ l.receiver.ackNo64 := by
  obtain ⟨x, hx, hackno⟩ := h.acks _ advertised
  have hle := h.ackNo64_le talking
  have hflight := h.kept.flight
  have habs : l.sending.absAckno ackno = x := by
    rw [Sending.absAckno, h.kept.isn_eq, show ackno = wrap x isn from hackno]
    exact unwrap_wrap isn (by omega) (by omega) (by omega)
  rwa [habs]

/-- A sender that has sent more keeps the link, unless it acknowledged too much. -/
theorem Joined.send (h : Joined isn l) {s : Sending} {new : List TCPSegment} (kept : s.Kept isn)
    (grown : s.log = l.sending.log ++ new)
    (quiet : Waiting l → s.Within ∧ s.edge = 0 ∧ s.sender.ackedNext = 0)
    (acked : Talking isn l → s.sender.ackedNext ≤ l.receiver.ackNo64) :
    Joined isn { l with sending := s } := by
  have hwithin := h.safe.output.within
  have hwritten := h.safe.output.written
  have hsent : sentBytes s.log = sentBytes l.sending.log ++ sentBytes new := by
    rw [grown, sentBytes_append]
  have hstill : l.receiver.receivedFin = true → sentBytes new = [] := by
    intro hfin
    have hafter : Accounts s.accepted isn (l.sending.log ++ new) s.sender := grown ▸ kept
    exact h.kept.sentBytes_new hafter (h.fin hfin)
  refine ⟨kept, ?_, fun hfin => ?_, h.acks, ?_⟩
  · rcases h.phase with waiting | talking
    · obtain ⟨hwin, hedge, hnone⟩ := quiet waiting
      exact .inl ⟨hsent ▸ waiting.fresh.extend _, waiting.silent, hwin, hedge, hnone⟩
    · exact .inr ⟨hsent ▸ talking.started.extend hstill,
        grown ▸ List.append_ne_nil_of_left_ne_nil talking.begun new, acked talking⟩
  · obtain ⟨seg, hseg, hflag⟩ := h.fin hfin
    exact ⟨seg, grown ▸ List.mem_append_left _ hseg, hflag⟩
  · show l.readLog = (sentBytes s.log).take l.receiver.reassembler.output.totalBytesRead
    rw [hsent, h.log, List.take_append_of_le_length]
    omega

/-- **Nothing that happens to the sender breaks the link.** -/
theorem Joined.sender (h : Joined isn l) {op : Sending.Op} (ok : Delivers l (.sender op))
    (few : l.sending.sender.nextSeqno < 2 ^ 30) : Joined isn (l.step field (.sender op)) := by
  have inRange : l.sending.sender.nextSeqno < 2 ^ 64 := by omega
  obtain ⟨new, hnew⟩ := l.sending.step_log op
  have hacked := h.kept.step_ackedNext op inRange
  refine h.send (h.kept.step op inRange) hnew (fun waiting => ?_) (fun talking => ?_)
  · have hquiet : ∀ ackno windowSize, op ≠ .ack ackno windowSize := by
      rintro ackno windowSize rfl
      have hmem : (ackno, windowSize) ∈ l.acks := ok
      rw [waiting.silent] at hmem
      cases hmem
    refine ⟨waiting.within.step h.kept (l.sending.timely_of_quiet hquiet) inRange, ?_, ?_⟩
    · rw [l.sending.step_edge hquiet, waiting.noEdge]
    · rcases hacked with hsame | ⟨ackno, windowSize, hop, -⟩
      · exact hsame.trans waiting.unacked
      · exact absurd hop (hquiet ackno windowSize)
  · rcases hacked with hsame | ⟨ackno, windowSize, rfl, hle⟩
    · exact Nat.le_trans (Nat.le_of_eq hsame) talking.acked
    · exact Nat.le_trans hle (h.absAckno_le talking few ok)

/-- Everything in the data channel is carved from the bytes sent, or carries nothing. -/
theorem Joined.channel (h : Joined isn l) {seg : TCPSegment}
    (queued : seg ∈ l.sending.sender.segmentsOut) :
    seg.lengthInSequenceSpace = 0 ∨ seg ∈ l.sending.log ∧
      (∃ i, Carved (sentBytes l.sending.log) isn i seg) ∧
      (Waiting l → seg.header.syn = true) := by
  refine (h.kept.channel queued).imp_right fun ⟨hlog, hcarved, hsyn⟩ => ⟨hlog, hcarved, fun waiting => ?_⟩
  have hwithin : l.sending.sender.Reaches (max l.sending.edge 1) := waiting.within
  rw [waiting.noEdge] at hwithin
  exact hsyn hwithin

/-- A receiver that has moved on is still ahead of the sender and of every acknowledgment. -/
theorem Joined.receive (h : Joined isn l) {r : TCPReceiver} (begun : l.sending.log ≠ [])
    (started : TCPReceiver.Started (sentBytes l.sending.log) isn r)
    (ahead : Waiting l ∨ l.receiver.ackNo64 ≤ r.ackNo64)
    (fin : r.receivedFin = true → ∃ seg ∈ l.sending.log, seg.header.fin = true)
    (read : r.reassembler.output.totalBytesRead = l.receiver.reassembler.output.totalBytesRead) :
    Joined isn { l with receiver := r } := by
  refine ⟨h.kept, .inr ⟨started, begun, ?_⟩, fin, fun a ha => ?_, ?_⟩
  · rcases ahead with waiting | hle
    · exact waiting.unacked ▸ Nat.zero_le _
    · rcases h.phase with waiting | talking
      · exact waiting.unacked ▸ Nat.zero_le _
      · exact Nat.le_trans talking.acked hle
  · rcases ahead with waiting | hle
    · have hmem : a ∈ l.acks := ha
      rw [waiting.silent] at hmem
      cases hmem
    · obtain ⟨x, hx, heq⟩ := h.acks a ha
      exact ⟨x, Nat.le_trans hx hle, heq⟩
  · show l.readLog = (sentBytes l.sending.log).take r.reassembler.output.totalBytesRead
    rw [read]
    exact h.log

/-- **A delivered segment keeps the link**, however old it is. -/
theorem Joined.deliver (h : Joined isn l) {seg : TCPSegment}
    (queued : seg ∈ l.sending.sender.segmentsOut) (few : l.sending.sender.nextSeqno < 2 ^ 30) :
    Joined isn (l.step field (.deliver seg)) := by
  have hshort := h.short few
  have hread := l.receiver.segmentReceived_totalBytesRead seg
  have hfin := l.receiver.segmentReceived_receivedFin seg
  rcases h.channel queued with hblank | ⟨hmem, ⟨i, hcarved⟩, hsyn⟩
  · rw [(seg.blank_of_length hblank).2.2, Bool.or_false] at hfin
    rcases h.phase with waiting | talking
    · rw [step, waiting.fresh.blank hblank]
      exact h
    · obtain ⟨hstarted, hgrow⟩ := talking.started.blank hblank hshort
      exact h.receive talking.begun hstarted (.inr hgrow) (hfin ▸ h.fin) hread
  · have hnow : (l.receiver.segmentReceived seg).receivedFin = true →
        ∃ seg ∈ l.sending.log, seg.header.fin = true := by
      rw [hfin, Bool.or_eq_true]
      exact fun hor => hor.elim h.fin fun hflag => ⟨seg, hmem, hflag⟩
    rcases h.phase with waiting | talking
    · exact h.receive (List.ne_nil_of_mem hmem)
        (TCPReceiver.segmentReceived_started (.inl ⟨waiting.fresh, hsyn waiting⟩) hcarved hshort)
        (.inl waiting) hnow hread
    · exact h.receive (List.ne_nil_of_mem hmem)
        (TCPReceiver.segmentReceived_started (.inr talking.started) hcarved hshort)
        (.inr (TCPReceiver.segmentReceived_ackNo64_le talking.started hcarved hshort)) hnow hread

theorem Joined.advertise (h : Joined isn l) : Joined isn (l.step field .advertise) := by
  rw [step, TCPReceiver.ackno]
  rcases h.phase with waiting | talking
  · rw [waiting.fresh.noSyn]
    simpa using h
  · rw [if_pos talking.started.syn]
    refine ⟨h.kept, .inr ⟨talking.started, talking.begun, talking.acked⟩, h.fin, fun a ha => ?_, h.log⟩
    rcases List.mem_append.mp ha with hold | hnew
    · exact h.acks a hold
    · cases List.mem_singleton.mp hnew
      exact ⟨_, Nat.le_refl _, congrArg (wrap _) talking.started.isn_eq⟩

theorem Joined.read (h : Joined isn l) (len : Nat) : Joined isn (l.step field (.read len)) where
  kept := h.kept
  phase := h.phase.imp
    (fun w => ⟨w.fresh.popOutput len, w.silent, w.within, w.noEdge, w.unacked⟩)
    (fun k => ⟨k.started.popOutput len, k.begun, k.acked⟩)
  fin := h.fin
  acks := h.acks
  log := h.safe.output.read_log h.log len

variable {sendCapacity recvCapacity : Nat} {retxTimeout : UInt16}

/-- **End-to-end stream integrity.** After every run over channels that lose, repeat and reorder, and
with fewer than `2 ^ 30` sequence numbers used: what the receiver has written is a prefix of what the
sending application wrote; and the sender's acknowledged number, the receiver's acknowledgment number
and the sender's next number are in order once the SYN is in, so a segment is outstanding until the
receiver has assembled it. -/
theorem stream_integrity
    (run : Runs.Reach (step field) Delivers (new sendCapacity recvCapacity retxTimeout isn) l)
    (few : l.sending.sender.nextSeqno < 2 ^ 30) :
    l.readLog ++ l.receiver.streamOut.buf <+: l.sending.accepted ∧
      (l.readLog ++ l.receiver.streamOut.buf).length = l.receiver.streamOut.bytesWritten ∧
      (l.receiver.receivedSyn = true →
        l.sending.sender.ackedNext ≤ l.receiver.ackNo64 ∧
        l.receiver.ackNo64 ≤ l.sending.sender.nextSeqno) ∧
      ∀ p ∈ number 0 l.sending.log, p.2 ∈ l.sending.sender.outstandingBuffer ∨
        p.1 + p.2.lengthInSequenceSpace ≤ l.receiver.ackNo64 := by
  have h : Joined isn l := by
    refine run.invariant_below (Joined isn) (fun l => l.sending.sender.nextSeqno)
      (joined_new sendCapacity recvCapacity retxTimeout isn) ?_ ?_ few
    · intro l op _
      cases op with
      | sender op => exact l.sending.step_nextSeqno_le op
      | deliver seg => exact Nat.le_refl _
      | advertise => exact Nat.le_refl _
      | read len => exact Nat.le_refl _
    · intro l op h ok hbelow
      cases op with
      | sender op =>
        exact h.sender ok (Nat.lt_of_le_of_lt (l.sending.step_nextSeqno_le op) hbelow)
      | deliver seg => exact h.deliver ok hbelow
      | advertise => exact h.advertise
      | read len => exact h.read len
  have hwritten : l.readLog ++ l.receiver.streamOut.buf =
      (sentBytes l.sending.log).take l.receiver.streamOut.bytesWritten := by
    rw [h.log]
    exact h.safe.output.take_append
  have hwithin : l.receiver.streamOut.bytesWritten ≤ (sentBytes l.sending.log).length :=
    h.safe.output.within
  have hacked : l.sending.sender.ackedNext ≤ l.receiver.ackNo64 := by
    rcases h.phase with waiting | talking
    · exact waiting.unacked ▸ Nat.zero_le _
    · exact talking.acked
  refine ⟨?_, ?_, fun hsyn => ⟨hacked, ?_⟩, fun p hp => ?_⟩
  · rw [hwritten, sentBytes, h.kept.payloads]
    exact (List.take_prefix _ _).trans (List.take_prefix _ _)
  · rw [hwritten, List.length_take, Nat.min_eq_left hwithin]
  · rcases h.phase with waiting | talking
    · rw [waiting.fresh.noSyn] at hsyn
      cases hsyn
    · exact h.ackNo64_le talking
  · obtain ⟨acked, hlog, hnext⟩ := h.kept.held
    rw [hlog, number_append, List.mem_append] at hp
    rcases hp with hp | hp
    · have hend := (number_bounds hp).2.1
      exact .inr (by omega)
    · exact .inl (number_bounds hp).2.2

/-- Three bytes: the SYN is delivered twice, the data out of order, the first part once more after the
acknowledgment of everything. -/
theorem stream_integrity_three :
    let syn : TCPSegment :=
      { header := { seqno := ⟨7⟩, syn := true }, payload := Buffer.ofString [] }
    let first : TCPSegment := { header := { seqno := ⟨8⟩ }, payload := Buffer.ofString [1, 2] }
    let second : TCPSegment :=
      { header := { seqno := ⟨10⟩, fin := true }, payload := Buffer.ofString [3] }
    let l := [.sender .fillWindow, .deliver syn, .advertise, .sender (.ack ⟨8⟩ 4),
      .sender (.write [1, 2]), .sender .fillWindow, .sender (.write [3]), .sender .endInput,
      .sender .fillWindow, .deliver second, .deliver syn, .deliver first, .read 2, .deliver first,
      .advertise, .sender (.ack ⟨12⟩ 3)].foldl (step Nat.toUInt16) (new 4 4 1 ⟨7⟩)
    l.readLog ++ l.receiver.streamOut.buf <+: l.sending.accepted ∧
      l.readLog ++ l.receiver.streamOut.buf = [1, 2, 3] ∧ l.sending.sender.ackedNext = 5 := by
  intro syn first second l
  have run : Runs.Reach (step Nat.toUInt16) Delivers (new 4 4 1 ⟨7⟩) l :=
    Runs.reach_foldl .start (by decide)
  exact ⟨(stream_integrity run (by decide)).1, by decide, by decide⟩

end Link

end Sponge
