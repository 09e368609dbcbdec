import Sponge.Laws.Tcp.Sender
import Sponge.Lib.Run

/-!
# Laws.Tcp.Sending — the sender's books, over whole runs

A `Sending` is a sender with two records kept beside it: the bytes its stream accepted, and the log of
the segments it sent for the first time, in order. Retransmissions and empty segments are not logged;
everything else the sender ever queued is in the log (`Accounts.outs`).

`Accounts` is the invariant. The log numbers the sequence space without a gap; the outstanding
segments are its tail, from the first number not fully acknowledged on; the payloads in it are the
bytes popped from the stream; SYN and FIN are its two ends. Every operation keeps it, whatever the
acknowledgments say, as long as the sequence numbers fit 64 bits.
-/

namespace Sponge

/-- The sequence numbers a list of segments occupies. -/
def seqLen (segs : List TCPSegment) : Nat := (segs.map TCPSegment.lengthInSequenceSpace).sum

/-- Consecutive segments with their absolute sequence numbers, from `a` on. -/
def number (a : Nat) : List TCPSegment → List (Nat × TCPSegment)
  | [] => []
  | seg :: rest => (a, seg) :: number (a + seg.lengthInSequenceSpace) rest

@[simp] theorem seqLen_nil : seqLen [] = 0 := rfl

@[simp] theorem seqLen_cons (seg : TCPSegment) (rest : List TCPSegment) :
    seqLen (seg :: rest) = seg.lengthInSequenceSpace + seqLen rest := by
  simp only [seqLen, List.map_cons, List.sum_cons]

@[simp] theorem seqLen_append (l l' : List TCPSegment) : seqLen (l ++ l') = seqLen l + seqLen l' := by
  simp only [seqLen, List.map_append, List.sum_append]

theorem number_append (a : Nat) (l l' : List TCPSegment) :
    number a (l ++ l') = number a l ++ number (a + seqLen l) l' := by
  induction l generalizing a with
  | nil => rfl
  | cons seg l ih =>
    rw [List.cons_append, number, ih, number, List.cons_append, seqLen_cons, Nat.add_assoc]

/-- A numbered segment lies between the first number and the last. -/
theorem number_bounds {a : Nat} {l : List TCPSegment} {p : Nat × TCPSegment} (h : p ∈ number a l) :
    a ≤ p.1 ∧ p.1 + p.2.lengthInSequenceSpace ≤ a + seqLen l ∧ p.2 ∈ l := by
  induction l generalizing a with
  | nil => cases h
  | cons seg l ih =>
    rw [number, List.mem_cons] at h
    rw [seqLen_cons]
    rcases h with rfl | h
    · exact ⟨Nat.le_refl _, by dsimp only; omega, List.mem_cons_self⟩
    · obtain ⟨hlo, hhi, hmem⟩ := ih h
      exact ⟨by omega, by omega, List.mem_cons_of_mem _ hmem⟩

theorem exists_number {a : Nat} {l : List TCPSegment} {seg : TCPSegment} (h : seg ∈ l) :
    ∃ x, (x, seg) ∈ number a l := by
  induction l generalizing a with
  | nil => cases h
  | cons head l ih =>
    rcases List.mem_cons.mp h with rfl | h
    · exact ⟨a, List.mem_cons_self⟩
    · obtain ⟨x, hx⟩ := ih h
      exact ⟨x, List.mem_cons_of_mem _ hx⟩

/-- What is true of every segment the sender sent, under its absolute sequence number. -/
structure Sent (T : Bytes) (isn : WrappingInt32) (s : TCPSender) (p : Nat × TCPSegment) : Prop where
  seqno : p.2.header.seqno = wrap p.1 isn
  syn : p.2.header.syn = true ↔ p.1 = 0
  fin : p.2.header.fin = true →
    s.finSent = true ∧ p.1 + p.2.lengthInSequenceSpace = s.nextSeqno
  excerpt : List.Excerpt T (p.1 - 1) p.2.payload.str
  within : p.1 - 1 + p.2.payload.str.length ≤ s.stream.totalBytesRead

/-- The sender's books: `T` is what its stream accepted, `log` what it sent for the first time. -/
structure Accounts (T : Bytes) (isn : WrappingInt32) (log : List TCPSegment) (s : TCPSender) :
    Prop where
  isn_eq : s.isn = isn
  carries : s.stream.Carries T
  whole : s.stream.totalBytesWritten = T.length
  total : s.nextSeqno = seqLen log
  held : ∃ acked, log = acked ++ s.outstandingBuffer ∧ s.ackedNext = seqLen acked
  flight : s.nextSeqno = s.ackedNext + s.bytesInFlight
  counts : s.nextSeqno = (if s.synSent then 1 else 0) + s.stream.totalBytesRead +
    (if s.finSent then 1 else 0)
  unsent : s.synSent = false → log = []
  finLast : s.FinLast
  payloads : log.flatMap (·.payload.str) = T.take s.stream.totalBytesRead
  each : ∀ p ∈ number 0 log, Sent T isn s p
  outs : ∀ seg ∈ s.segmentsOut, seg ∈ log ∨ seg.lengthInSequenceSpace = 0
  order : log.Sublist s.segmentsOut

variable {T : Bytes} {isn : WrappingInt32} {log : List TCPSegment} {s : TCPSender}

theorem accounts_new (capacity : Nat) (retxTimeout : UInt16) (isn : WrappingInt32) :
    Accounts [] isn [] (TCPSender.new capacity retxTimeout isn) where
  isn_eq := rfl
  carries := ByteStream.carries_new [] capacity
  whole := rfl
  total := rfl
  held := ⟨[], rfl, rfl⟩
  flight := rfl
  counts := rfl
  unsent := fun _ => rfl
  finLast := nofun
  payloads := rfl
  each := fun _ hp => absurd hp List.not_mem_nil
  outs := fun _ hseg => absurd hseg List.not_mem_nil
  order := List.Sublist.refl _

/-! ## Sending a fresh segment -/

/-- The numbers of a turn: where the next segment starts and what the stream has given. -/
theorem Accounts.start (h : Accounts T isn log s) (hfin : s.finSent = false) :
    s.nextSeqno = (if s.synSent then 1 else 0) + s.stream.totalBytesRead := by
  have hcounts := h.counts
  rwa [hfin, if_neg Bool.false_ne_true, Nat.add_zero] at hcounts

/-- A fresh segment takes its data from the stream. -/
theorem TCPSender.Sendable.totalBytesRead {data : Bytes} {fin : Bool} (sendable : s.Sendable data fin) :
    (s.send data fin).stream.totalBytesRead = s.stream.totalBytesRead + data.length := by
  have hfront := congrArg List.length sendable.front
  rw [List.length_take] at hfront
  show (s.stream.popOutput data.length).totalBytesRead = _
  rw [ByteStream.popOutput_totalBytesRead, Nat.min_eq_left (by omega)]

/-- The data of a fresh segment are the next bytes of the stream. -/
theorem Accounts.excerpt (h : Accounts T isn log s) {data : Bytes} {fin : Bool}
    (sendable : s.Sendable data fin) : List.Excerpt T s.stream.totalBytesRead data := by
  have htake := h.carries.buffered.take data.length
  rwa [← sendable.front] at htake

/-- What was sent before a fresh segment stays so; none of it has the FIN. -/
theorem Sent.send {p : Nat × TCPSegment} (h : Sent T isn s p) (hfin : s.finSent = false)
    {data : Bytes} {fin : Bool} (sendable : s.Sendable data fin) :
    Sent T isn (s.send data fin) p := by
  refine ⟨h.seqno, h.syn, fun hf => ?_, h.excerpt, ?_⟩
  · have hsent := (h.fin hf).1
    rw [hfin] at hsent
    cases hsent
  · rw [sendable.totalBytesRead]
    exact Nat.le_add_right_of_le h.within

/-- A fresh segment is sent as it should be. -/
theorem Accounts.sent_fresh (h : Accounts T isn log s) (hfin : s.finSent = false) {data : Bytes}
    {fin : Bool} (sendable : s.Sendable data fin) :
    Sent T isn (s.send data fin) (s.nextSeqno, s.fresh data fin) := by
  have hstart := h.start hfin
  refine ⟨congrArg (wrap s.nextSeqno) h.isn_eq, ?_, fun hf => ⟨hf, rfl⟩, ?_, ?_⟩
  · show (!s.synSent) = true ↔ s.nextSeqno = 0
    cases hsyn : s.synSent with
    | true =>
      rw [hsyn, if_pos rfl] at hstart
      exact ⟨nofun, fun hzero => by omega⟩
    | false =>
      rw [h.total, h.unsent hsyn]
      exact ⟨fun _ => rfl, fun _ => rfl⟩
  · show List.Excerpt T (s.nextSeqno - 1) (data.drop 0)
    rw [List.drop_zero]
    cases hsyn : s.synSent with
    | true =>
      rw [hsyn, if_pos rfl] at hstart
      rw [hstart, Nat.add_sub_cancel_left]
      exact h.excerpt sendable
    | false =>
      rw [sendable.synAlone hsyn]
      exact List.excerpt_nil _ _
  · show s.nextSeqno - 1 + (data.drop 0).length ≤ _
    rw [List.drop_zero, sendable.totalBytesRead, hstart]
    split <;> omega

/-- **A fresh segment goes on the books.** -/
theorem Accounts.send (h : Accounts T isn log s) (hfin : s.finSent = false) {data : Bytes}
    {fin : Bool} (sendable : s.Sendable data fin) :
    Accounts T isn (log ++ [s.fresh data fin]) (s.send data fin) := by
  have hread := sendable.totalBytesRead
  have hnext : (s.send data fin).nextSeqno =
      s.nextSeqno + (s.fresh data fin).lengthInSequenceSpace := rfl
  have hnumber : number 0 (log ++ [s.fresh data fin]) =
      number 0 log ++ [(s.nextSeqno, s.fresh data fin)] := by
    rw [number_append, Nat.zero_add, ← h.total]
    rfl
  refine ⟨h.isn_eq, h.carries.popOutput _, h.whole, ?_, ?_, ?_, ?_, nofun,
    TCPSender.send_finLast sendable, ?_, ?_, ?_, h.order.append (List.Sublist.refl _)⟩
  · rw [hnext, h.total, seqLen_append, seqLen_cons, seqLen_nil, Nat.add_zero]
  · obtain ⟨acked, hlog, hacked⟩ := h.held
    refine ⟨acked, ?_, hacked⟩
    rw [hlog, List.append_assoc]
    rfl
  · show s.nextSeqno + _ = s.ackedNext + (s.bytesInFlight + _)
    rw [h.flight, Nat.add_assoc]
  · show s.nextSeqno + (s.fresh data fin).lengthInSequenceSpace = 1 + _ + if fin then 1 else 0
    rw [hread, TCPSender.length_fresh, h.start hfin]
    split <;> omega
  · rw [List.flatMap_append, h.payloads, hread]
    show _ ++ (data.drop 0 ++ []) = _
    rw [List.drop_zero, List.append_nil, (h.excerpt sendable).take_append]
  · intro p hp
    rw [hnumber, List.mem_append, List.mem_singleton] at hp
    rcases hp with hp | rfl
    · exact (h.each p hp).send hfin sendable
    · exact h.sent_fresh hfin sendable
  · intro seg hseg
    rcases List.mem_append.mp hseg with hseg | hseg
    · exact (h.outs seg hseg).imp_left (List.mem_append_left _)
    · exact .inl (List.mem_append_right _ hseg)

/-- The loop keeps the books, and logs exactly what it queues. -/
theorem Accounts.fillWindow (h : Accounts T isn log s) :
    ∃ new, s.fillWindow.segmentsOut = s.segmentsOut ++ new ∧
      Accounts T isn (log ++ new) s.fillWindow :=
  TCPSender.fillLoop_rule (fun _ _ h => h.finLast) (fun _ _ _ _ h hfin hsend => h.send hfin hsend) _ _ h

/-! ## Acknowledgments -/

/-- The first of correctly numbered segments is found at its number. -/
theorem unwrap_head {isn : WrappingInt32} {head : TCPSegment} {rest : List TCPSegment} {a : Nat}
    (numbered : ∀ p ∈ number a (head :: rest), p.2.header.seqno = wrap p.1 isn) (inRange : a < 2 ^ 64) :
    unwrap head.header.seqno isn a = a := by
  have hseqno : head.header.seqno = wrap a isn := numbered _ List.mem_cons_self
  rw [hseqno]
  exact unwrap_wrap isn (by omega) (by omega) inRange

/-- What the acknowledgment loop does: it drops a front of the segments and moves the two counters by its
length. Of correctly numbered segments it drops such that are acknowledged in full. -/
theorem ackLoop_spec (isn : WrappingInt32) (absAckno : Nat) (l : List TCPSegment) (a : Nat)
    (bytesInFlight : Nat) (newData : Bool) :
    let out := TCPSender.ackLoop isn absAckno l a bytesInFlight newData
    ∃ popped, l = popped ++ out.1 ∧ out.2.1 = a + seqLen popped ∧
      out.2.2.1 = bytesInFlight - seqLen popped ∧
      ((∀ p ∈ number a l, p.2.header.seqno = wrap p.1 isn) → a + seqLen l < 2 ^ 64 →
        popped = [] ∨ out.2.1 ≤ absAckno) := by
  induction l generalizing a bytesInFlight newData with
  | nil => exact ⟨[], rfl, rfl, rfl, fun _ _ => .inl rfl⟩
  | cons head rest ih =>
    rw [TCPSender.ackLoop]
    dsimp only
    split
    next hlt =>
      split
      next hle =>
        obtain ⟨popped, hrest, hacked, hflight, hbelow⟩ := ih (a + head.lengthInSequenceSpace)
          (bytesInFlight - head.lengthInSequenceSpace) true
        refine ⟨head :: popped, congrArg (List.cons head) hrest, ?_, ?_, fun numbered inRange => .inr ?_⟩
        · rw [hacked, seqLen_cons, Nat.add_assoc]
        · rw [hflight, seqLen_cons, Nat.sub_sub]
        · rw [seqLen_cons] at inRange
          rw [unwrap_head numbered (by omega)] at hlt hle
          rcases hbelow (fun p hp => numbered p (List.mem_cons_of_mem _ hp)) (by omega) with hnil | hbelow
          · rw [hacked, hnil, seqLen_nil]
            omega
          · exact hbelow
      next => exact ⟨[], rfl, rfl, rfl, fun _ _ => .inl rfl⟩
    next => exact ⟨[], rfl, rfl, rfl, fun _ _ => .inl rfl⟩

/-- The numbers of the outstanding segments, read off the log. -/
theorem Accounts.outstanding_numbered (h : Accounts T isn log s) :
    ∀ p ∈ number s.ackedNext s.outstandingBuffer, p.2.header.seqno = wrap p.1 isn := by
  obtain ⟨acked, hlog, hacked⟩ := h.held
  intro p hp
  refine (h.each p ?_).seqno
  rw [hlog, number_append, Nat.zero_add, ← hacked]
  exact List.mem_append_right _ hp

theorem Accounts.outstanding_seqLen (h : Accounts T isn log s) :
    seqLen s.outstandingBuffer = s.bytesInFlight := by
  obtain ⟨acked, hlog, hacked⟩ := h.held
  have htotal := h.total
  have hflight := h.flight
  rw [hlog, seqLen_append] at htotal
  omega

/-- What accepting an acknowledgment changes: a fully acknowledged front of the outstanding segments
goes, and the window is what the acknowledgment leaves beyond what is still in flight. -/
theorem Accounts.acceptAck_cases (h : Accounts T isn log s) (inRange : s.nextSeqno < 2 ^ 64)
    (absAckno : Nat) (windowSize : UInt16) :
    let out := s.acceptAck absAckno windowSize
    (∃ popped, s.outstandingBuffer = popped ++ out.outstandingBuffer ∧
      out.ackedNext = s.ackedNext + seqLen popped ∧
      (popped = [] ∨ out.ackedNext ≤ absAckno)) ∧
    out.nextSeqno = out.ackedNext + out.bytesInFlight ∧
    out.peerWindowSize = max 1 windowSize.toNat - out.bytesInFlight := by
  intro out
  have hlen := h.outstanding_seqLen
  have hflight := h.flight
  obtain ⟨popped, hrest, hacked, hleft, hbelow⟩ :=
    ackLoop_spec s.isn absAckno s.outstandingBuffer s.ackedNext s.bytesInFlight false
  have hout : s.outstandingBuffer = popped ++ out.outstandingBuffer := hrest
  have hsplit : seqLen s.outstandingBuffer = seqLen popped + seqLen out.outstandingBuffer := by
    rw [hout, seqLen_append]
  have hacked : out.ackedNext = s.ackedNext + seqLen popped := hacked
  have hleft : out.bytesInFlight = s.bytesInFlight - seqLen popped := hleft
  refine ⟨⟨popped, hout, hacked, hbelow (h.isn_eq ▸ h.outstanding_numbered) (by omega)⟩, ?_, ?_⟩
  · show s.nextSeqno = _
    omega
  · show (if windowSize = 0 then 1 else windowSize.toNat) - out.bytesInFlight = _
    congr 1
    split
    next hzero => rw [hzero]; rfl
    next hne =>
      have : windowSize.toNat ≠ 0 := fun hc => hne (UInt16.toNat_inj.mp hc)
      omega

/-- **An acknowledgment keeps the books**, whatever it acknowledges. -/
theorem Accounts.acceptAck (h : Accounts T isn log s) (inRange : s.nextSeqno < 2 ^ 64)
    (absAckno : Nat) (windowSize : UInt16) :
    Accounts T isn log (s.acceptAck absAckno windowSize) := by
  obtain ⟨⟨popped, hrest, hacked, -⟩, hflight, -⟩ := h.acceptAck_cases inRange absAckno windowSize
  refine ⟨h.isn_eq, h.carries, h.whole, h.total, ?_, hflight, h.counts, h.unsent, h.finLast,
    h.payloads, fun p hp => ?_, h.outs, h.order⟩
  · obtain ⟨acked, hlog, hbefore⟩ := h.held
    refine ⟨acked ++ popped, ?_, ?_⟩
    · rw [hlog, hrest, List.append_assoc]
    · rw [hacked, hbefore, seqLen_append]
  · have hsent := h.each p hp
    exact ⟨hsent.seqno, hsent.syn, hsent.fin, hsent.excerpt, hsent.within⟩

/-! ## The other operations -/

/-- What was sent stays so while the counters and the FIN mark do. -/
theorem Sent.congr {s' : TCPSender} {p : Nat × TCPSegment} (h : Sent T isn s p)
    (fin : s'.finSent = s.finSent) (next : s'.nextSeqno = s.nextSeqno)
    (read : s'.stream.totalBytesRead = s.stream.totalBytesRead) : Sent T isn s' p := by
  refine ⟨h.seqno, h.syn, ?_, h.excerpt, ?_⟩
  · rw [fin, next]
    exact h.fin
  · rw [read]
    exact h.within

/-- Noting a window, or a new state of the timer, touches no book. -/
theorem Accounts.note (h : Accounts T isn log s) (receivedWindowSize : Nat) (timer : Timer) :
    Accounts T isn log { s with receivedWindowSize, timer } :=
  ⟨h.isn_eq, h.carries, h.whole, h.total, h.held, h.flight, h.counts, h.unsent, h.finLast, h.payloads,
    fun p hp => (h.each p hp).congr rfl rfl rfl, h.outs, h.order⟩

/-- Queueing a segment that is logged or occupies no sequence number touches no book. -/
theorem Accounts.requeue (h : Accounts T isn log s) {again : List TCPSegment}
    (known : ∀ seg ∈ again, seg ∈ log ∨ seg.lengthInSequenceSpace = 0) :
    Accounts T isn log { s with segmentsOut := s.segmentsOut ++ again } := by
  refine ⟨h.isn_eq, h.carries, h.whole, h.total, h.held, h.flight, h.counts, h.unsent, h.finLast,
    h.payloads, fun p hp => (h.each p hp).congr rfl rfl rfl, fun seg hseg => ?_,
    h.order.trans (List.sublist_append_left _ _)⟩
  rcases List.mem_append.mp hseg with hseg | hseg
  · exact h.outs seg hseg
  · exact known seg hseg

theorem Accounts.tick (h : Accounts T isn log s) (ms : Nat) : Accounts T isn log (s.tick ms) := by
  obtain ⟨again, hqueue, hagain⟩ := s.tick_queue ms
  have hlogged : ∀ seg ∈ again, seg ∈ log ∨ seg.lengthInSequenceSpace = 0 := by
    intro seg hseg
    obtain ⟨acked, hlog, -⟩ := h.held
    left
    rw [hlog]
    exact List.mem_append_right _ (hagain seg hseg)
  rw [TCPSender.tick_frame, hqueue]
  exact (h.requeue hlogged).note s.receivedWindowSize _

theorem Accounts.sendEmptySegment (h : Accounts T isn log s) :
    Accounts T isn log s.sendEmptySegment :=
  h.requeue fun seg hseg => .inr (by rw [List.mem_singleton.mp hseg]; rfl)

/-- The application writes: the stream accepts more, unless it has ended. -/
theorem Accounts.write (h : Accounts T isn log s) (data : Bytes) :
    Accounts (T ++ data.take (s.stream.write data).2) isn log
      { s with stream := (s.stream.write data).1 } := by
  have hle := s.stream.write_snd_le data
  have hwithin := h.carries.within
  have hwritten := h.carries.written
  have hread := s.stream.write_totalBytesRead data
  have hnext : List.Excerpt (T ++ data.take (s.stream.write data).2)
      s.stream.totalBytesWritten (data.take (s.stream.write data).2) := by
    rw [h.whole]
    exact List.excerpt_append T _
  have hcarries : (s.stream.write data).1.Carries (T ++ data.take (s.stream.write data).2) := by
    refine ⟨?_, ?_, ?_⟩
    · rw [ByteStream.write_totalBytesWritten, hread, ByteStream.write_buf_take, hwritten,
        List.length_append, List.length_take]
      omega
    · rw [hread, ByteStream.write_buf_take]
      refine (h.carries.buffered.extend _).append ?_
      rwa [← hwritten]
    · rw [ByteStream.write_totalBytesWritten, h.whole, List.length_append, List.length_take]
      omega
  refine ⟨h.isn_eq, hcarries, ?_, h.total, h.held, h.flight, ?_, h.unsent, h.finLast.write data, ?_, ?_,
    h.outs, h.order⟩
  · rw [ByteStream.write_totalBytesWritten, h.whole, List.length_append, List.length_take]
    omega
  · rw [hread]
    exact h.counts
  · rw [hread, h.payloads, List.take_append_of_le_length]
    omega
  · intro p hp
    have hsent := h.each p hp
    refine ⟨hsent.seqno, hsent.syn, hsent.fin, hsent.excerpt.extend _, ?_⟩
    rw [hread]
    exact hsent.within

theorem Accounts.endInput (h : Accounts T isn log s) :
    Accounts T isn log { s with stream := s.stream.endInput } :=
  ⟨h.isn_eq, h.carries.endInput, h.whole, h.total, h.held, h.flight, h.counts, h.unsent,
    h.finLast.endInput, h.payloads, fun p hp => (h.each p hp).congr rfl rfl rfl, h.outs, h.order⟩

/-! ## Whole runs -/

/-- A sender with its records: the bytes its stream accepted, the segments sent for the first time,
and the right edge, which is the greatest acknowledgment number plus window accepted so far. -/
structure Sending where
  sender : TCPSender
  accepted : Bytes
  log : List TCPSegment
  edge : Nat

namespace Sending

/-- What the application, the network and the clock do to a sender. -/
inductive Op
  | write (data : Bytes)
  | endInput
  | fillWindow
  | ack (ackno : WrappingInt32) (windowSize : UInt16)
  | tick (ms : Nat)
  | sendEmpty

def new (capacity : Nat) (retxTimeout : UInt16) (isn : WrappingInt32) : Sending :=
  ⟨TCPSender.new capacity retxTimeout isn, [], [], 0⟩

/-- Put a sender that has filled its window on record: what it queued is new. -/
def record (s : Sending) (sender : TCPSender) : Sending :=
  { s with sender, log := s.log ++ sender.segmentsOut.drop s.sender.segmentsOut.length }

/-- The absolute number an acknowledgment stands for. -/
def absAckno (s : Sending) (ackno : WrappingInt32) : Nat :=
  unwrap ackno s.sender.isn s.sender.ackedNext

def step (s : Sending) : Op → Sending
  | .write data =>
    { s with
      sender := { s.sender with stream := (s.sender.stream.write data).1 }
      accepted := s.accepted ++ data.take (s.sender.stream.write data).2 }
  | .endInput => { s with sender := { s.sender with stream := s.sender.stream.endInput } }
  | .fillWindow => s.record s.sender.fillWindow
  | .ack ackno windowSize =>
    { s.record (s.sender.ackReceived ackno windowSize) with
      edge := if s.absAckno ackno ≤ s.sender.nextSeqno then
          max s.edge (s.absAckno ackno + max 1 windowSize.toNat)
        else s.edge }
  | .tick ms => { s with sender := s.sender.tick ms }
  | .sendEmpty => { s with sender := s.sender.sendEmptySegment }

variable {s : Sending}

/-- The books of a sending. -/
def Kept (isn : WrappingInt32) (s : Sending) : Prop := Accounts s.accepted isn s.log s.sender

theorem step_nextSeqno_le (s : Sending) (op : Op) :
    s.sender.nextSeqno ≤ (s.step op).sender.nextSeqno := by
  cases op with
  | write data => exact Nat.le_refl _
  | endInput => exact Nat.le_refl _
  | fillWindow => exact TCPSender.fillLoop_nextSeqno_le _ _
  | ack ackno windowSize => exact TCPSender.ackReceived_nextSeqno_le _ _ _
  | tick ms => exact Nat.le_of_eq (TCPSender.tick_nextSeqno _ _).symm
  | sendEmpty => exact Nat.le_refl _

/-- What a sender queued is what goes on record. -/
theorem record_log {sender : TCPSender} {new : List TCPSegment}
    (queued : sender.segmentsOut = s.sender.segmentsOut ++ new) : (s.record sender).log = s.log ++ new := by
  dsimp only [record]
  rw [queued, List.drop_left]

/-- Filling the window from books that are kept, and recording it, keeps them. -/
theorem record_kept {filling : TCPSender} (h : Accounts s.accepted isn s.log filling)
    (same : filling.segmentsOut = s.sender.segmentsOut) : Kept isn (s.record filling.fillWindow) := by
  obtain ⟨new, hnew, hacc⟩ := h.fillWindow
  rw [Kept, record_log (same ▸ hnew)]
  exact hacc

/-- Receiving an acknowledgment and recording what it made room for keeps the books. -/
theorem Kept.ack (h : Kept isn s) (ackno : WrappingInt32) (windowSize : UInt16)
    (inRange : s.sender.nextSeqno < 2 ^ 64) :
    Kept isn (s.record (s.sender.ackReceived ackno windowSize)) := by
  rw [TCPSender.ackReceived_eq]
  generalize unwrap ackno s.sender.isn s.sender.ackedNext = absAckno
  split
  · unfold Kept record
    dsimp only
    rw [List.drop_length, List.append_nil]
    exact h.note _ _
  · exact record_kept (h.acceptAck inRange absAckno windowSize) rfl

theorem Kept.setEdge (h : Kept isn s) (edge : Nat) : Kept isn { s with edge } := h

/-- **Every operation keeps the books.** -/
theorem Kept.step (h : Kept isn s) (op : Op) (inRange : s.sender.nextSeqno < 2 ^ 64) :
    Kept isn (s.step op) := by
  cases op with
  | write data => exact h.write data
  | endInput => exact h.endInput
  | fillWindow => exact record_kept h rfl
  | ack ackno windowSize => exact (h.ack ackno windowSize inRange).setEdge _
  | tick ms => exact h.tick ms
  | sendEmpty => exact h.sendEmptySegment

/-- The segments carry consecutive absolute sequence numbers from `a` up to `b`. -/
def Consecutive (isn : WrappingInt32) (a : Nat) (segs : List TCPSegment) (b : Nat) : Prop :=
  (∀ p ∈ number a segs, p.2.header.seqno = wrap p.1 isn) ∧ b = a + seqLen segs

variable {capacity : Nat} {retxTimeout : UInt16}

theorem kept_of_run {ok : Sending → Op → Prop}
    (run : Runs.Reach step ok (new capacity retxTimeout isn) s)
    (few : s.sender.nextSeqno < 2 ^ 63) : Kept isn s := by
  refine run.invariant_below (Kept isn) (fun s => s.sender.nextSeqno)
    (accounts_new capacity retxTimeout isn) (fun s op _ => step_nextSeqno_le s op) ?_ few
  intro s op ih _ hless
  have hgrow := step_nextSeqno_le s op
  exact ih.step op (by omega)

/-- **The sender's accounting invariant.** After every run that uses fewer than `2 ^ 63` sequence
numbers: the counters agree; the outstanding segments are consecutive from the first number not
acknowledged to the next one; the segments sent for the first time number everything sent, in order,
and carry exactly the bytes popped; nothing else was ever queued but repetitions of them and segments
without a sequence number; SYN and FIN stand at the two ends. -/
theorem sending_accounts (run : Runs.Reach step (fun _ _ => True) (new capacity retxTimeout isn) s)
    (few : s.sender.nextSeqno < 2 ^ 63) :
    s.sender.nextSeqno = s.sender.ackedNext + s.sender.bytesInFlight ∧
      Consecutive isn s.sender.ackedNext s.sender.outstandingBuffer s.sender.nextSeqno ∧
      seqLen s.sender.outstandingBuffer = s.sender.bytesInFlight ∧
      s.sender.nextSeqno = (if s.sender.synSent then 1 else 0) + s.sender.stream.bytesRead +
        (if s.sender.finSent then 1 else 0) ∧
      Consecutive isn 0 s.log s.sender.nextSeqno ∧
      s.log.flatMap (·.payload.str) = s.accepted.take s.sender.stream.bytesRead ∧
      s.log.Sublist s.sender.segmentsOut ∧
      (∀ seg ∈ s.sender.segmentsOut, seg ∈ s.log ∨ seg.lengthInSequenceSpace = 0) ∧
      (∀ p ∈ number 0 s.log, p.2.header.syn = true → p.1 = 0) ∧
      (∀ p ∈ number 0 s.log, p.2.header.fin = true →
        s.sender.stream.eof = true ∧ p.1 + p.2.lengthInSequenceSpace = s.sender.nextSeqno) := by
  have h := kept_of_run run few
  have hlen := h.outstanding_seqLen
  refine ⟨h.flight, ⟨h.outstanding_numbered, by rw [hlen]; exact h.flight⟩, hlen, h.counts,
    ⟨fun p hp => (h.each p hp).seqno, by rw [Nat.zero_add]; exact h.total⟩, h.payloads, h.order, h.outs,
    fun p hp => (h.each p hp).syn.mp, fun p hp hfin => ?_⟩
  obtain ⟨hsent, hend⟩ := (h.each p hp).fin hfin
  exact ⟨(h.finLast hsent).2, hend⟩

/-- A run with a partial acknowledgment, an impossible one, a late one and a retransmission. -/
theorem sending_accounts_three :
    let s := [.fillWindow, .ack ⟨8⟩ 2, .write [1, 2, 3], .endInput, .fillWindow, .ack ⟨9⟩ 4, .ack ⟨90⟩ 1,
      .ack ⟨8⟩ 9, .tick 1, .sendEmpty].foldl step (new 4 1 ⟨7⟩)
    s.sender.nextSeqno = s.sender.ackedNext + s.sender.bytesInFlight ∧
      Consecutive ⟨7⟩ 0 s.log s.sender.nextSeqno ∧
      s.log.flatMap (·.payload.str) = s.accepted.take s.sender.stream.bytesRead := by
  intro s
  obtain ⟨hflight, -, -, -, hlog, hpayloads, -⟩ := sending_accounts (s := s)
    (Runs.reach_foldl .start (by decide)) (by decide)
  exact ⟨hflight, hlog, hpayloads⟩

end Sending

end Sponge
