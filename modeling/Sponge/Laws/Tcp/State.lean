import Sponge.Laws.Tcp.Closing
import Sponge.Tcp.State

/-!
# Laws.Tcp.State — what the summary of a connection tells

The summary of a sender is computed from its counters: what it has sent, what is in flight, how much was
written to its stream. In every run these tell exactly the sender's own marks (`Accounts.stateSummary_eq`).

The two summaries move along a diagram of their own, `next`, whatever segments arrive. It is not the
official one. The sender can go from SYN_SENT to FIN_ACKED in one call, because a peer that acknowledges
nothing but opens its window gets data and the FIN before its acknowledgment of the SYN. No call
acknowledges what it sends itself, so a FIN is never sent and acknowledged in one call.

A connection that is over has an official name again: RESET, or CLOSED if its segments were regular.
-/

namespace Sponge

/-! ## The marks of a stream -/

namespace TCPReceiver

variable {r r' r'' : TCPReceiver}

/-- A later state of a receiver: the SYN stays in, the end of the stream stays, no error comes or goes. -/
structure Later (r r' : TCPReceiver) : Prop where
  syn : r.receivedSyn = true → r'.receivedSyn = true
  ended : r.streamOut.isEnd = true → r'.streamOut.isEnd = true
  error : r'.streamOut.error = r.streamOut.error

theorem Later.refl (r : TCPReceiver) : r.Later r := ⟨id, id, rfl⟩

theorem Later.trans (h : r.Later r') (h' : r'.Later r'') : r.Later r'' :=
  ⟨fun hsyn => h'.syn (h.syn hsyn), fun hend => h'.ended (h.ended hend), h'.error.trans h.error⟩

theorem later_endInput (r : TCPReceiver) : r.Later r.endInput := ⟨id, fun _ => rfl, rfl⟩

theorem later_popOutput (r : TCPReceiver) (len : Nat) : r.Later (r.popOutput len) := ⟨id, id, rfl⟩

/-- A push never takes back the end of the output, and sets no error. -/
theorem pushSubstring_marks (s : StreamReassembler) (data : Bytes) (index : Nat) (eof : Bool) :
    (s.output.isEnd = true → (s.pushSubstring data index eof).output.isEnd = true) ∧
      (s.pushSubstring data index eof).output.error = s.output.error := by
  obtain ⟨before, heq, houtput, -, -⟩ := StreamReassembler.pushSubstring_eq s data index eof
  refine ⟨fun hend => ?_, ?_⟩
  · rw [StreamReassembler.pushSubstring_of_end data index eof hend]
    exact hend
  · rw [heq, StreamReassembler.endOutput_frame, ← houtput]
    exact ByteStream.write_error _ _

theorem later_advance (r : TCPReceiver) {pushed : StreamReassembler}
    (marks : (r.reassembler.output.isEnd = true → pushed.output.isEnd = true) ∧
      pushed.output.error = r.reassembler.output.error) : r.Later (r.advance pushed) :=
  ⟨id, marks.1, marks.2⟩

theorem later_acceptPayload (r : TCPReceiver) (seg : TCPSegment) : r.Later (r.acceptPayload seg) := by
  rcases acceptPayload_eq r seg with heq | heq
  · rw [heq]
    exact .refl r
  · rw [heq]
    exact r.later_advance (pushSubstring_marks _ _ _ _)

theorem later_segmentReceived (r : TCPReceiver) (seg : TCPSegment) : r.Later (r.segmentReceived seg) := by
  have hsyn : r.Later (r.acceptSyn seg) := by
    unfold acceptSyn
    split
    · exact ⟨fun _ => rfl, id, rfl⟩
    · exact .refl r
  have hpaid := hsyn.trans (later_acceptPayload (r.acceptSyn seg) seg)
  unfold segmentReceived
  generalize (r.acceptSyn seg).acceptPayload seg = paid at *
  have hnoted : paid.Later (paid.noteFin seg).consumeFin := by
    rw [consumeFin_frame, noteFin_frame]
    exact ⟨id, id, rfl⟩
  refine (hpaid.trans hnoted).trans ?_
  unfold endStream
  split
  · exact ⟨id, fun _ => rfl, rfl⟩
  · exact .refl _

end TCPReceiver

namespace TCPSender

variable {s : TCPSender}

theorem fillWindow_error (finLast : s.FinLast) : s.fillWindow.stream.error = s.stream.error := by
  obtain ⟨new, -, -, hsame⟩ := fillLoop_rule
    (P := fun _ t => t.FinLast ∧ t.stream.error = s.stream.error) (fun _ _ h => h.1)
    (fun _ _ _ _ h _ hsend => ⟨send_finLast hsend, h.2⟩) (s.fillBound + 1) [] ⟨finLast, rfl⟩
  exact hsame

theorem Marked.answer_error (h : s.Marked) (seg : TCPSegment) :
    (s.answer seg).stream.error = s.stream.error := by
  unfold TCPSender.answer
  split
  · rw [ackReceived_eq]
    split
    · rfl
    · exact fillWindow_error (h.acceptAck _ seg.header.win).finLast
  · split
    · exact fillWindow_error h.finLast
    · rfl

end TCPSender

/-! ## What a call does to the marks -/

namespace TCPConnection

variable {c c' : TCPConnection} {op : Op}

/-- The streams carry an error exactly when the connection was reset. -/
structure Failed (c : TCPConnection) : Prop where
  sender : c.sender.stream.error = c.rst
  receiver : c.receiver.streamOut.error = c.rst

theorem failed_new (cfg : TCPConfig) : (new cfg).Failed := ⟨rfl, rfl⟩

/-- A stage moves the receiver on, and fails neither stream. -/
theorem Sound.turn_marks (h : c.Sound) (turn : Turn c op c') :
    c.receiver.Later c'.receiver ∧ c'.sender.stream.error = c.sender.stream.error := by
  have hlast := h.marked.finLast
  cases turn with
  | connect => exact ⟨.refl _, TCPSender.fillWindow_error hlast⟩
  | write data =>
    refine ⟨.refl _, (TCPSender.fillWindow_error (h.marked.write data).finLast).trans ?_⟩
    exact ByteStream.write_error _ data
  | endInputStream => exact ⟨.refl _, TCPSender.fillWindow_error h.marked.endInput.finLast⟩
  | tick ms alone =>
    refine ⟨.refl _, ?_⟩
    dsimp only
    rw [TCPSender.tick_frame]
  | linger ms lingering => exact ⟨.refl _, rfl⟩
  | expire ms lingering due => exact ⟨TCPReceiver.later_endInput _, rfl⟩
  | handle seg kept =>
    obtain ⟨-, hsender, hreceiver, -, -⟩ := h.handle seg
    rw [hsender, TCPSender.acknowledge_frame]
    refine ⟨?_, h.marked.answer_error seg⟩
    rcases hreceiver with hreceiver | hreceiver
    · rw [hreceiver]
      exact TCPReceiver.later_segmentReceived _ seg
    · rw [hreceiver]
      exact (TCPReceiver.later_endInput _).trans (TCPReceiver.later_segmentReceived _ seg)

/-- What a call does to the receiver and to the marks of a failure: nothing fails, or everything does. -/
theorem Ready.call_marks (h : c.Ready) (call : Call c op c') :
    c.receiver.Later c'.receiver ∧ c'.sender.stream.error = c.sender.stream.error ∧ c'.rst = c.rst ∨
      c.receiver.setError.Later c'.receiver ∧ c'.sender.stream.error = true ∧ c'.rst = true := by
  cases call with
  | turn turn =>
    obtain ⟨hlater, herror⟩ := h.sound.turn_marks turn
    obtain ⟨hdrained, -⟩ := (h.sound.turn turn).sendSegs
    refine .inl ⟨hlater.trans ?_, ?_, hdrained.rst.trans (h.sound.turn_frame turn).2.2⟩
    · rcases hdrained.receiver with hsame | hsame
      · rw [hsame]
        exact .refl _
      · rw [hsame]
        exact TCPReceiver.later_endInput _
    · rw [hdrained.sender]
      exact herror
  | giveUp ms many => exact .inr ⟨.refl _, rfl, rfl⟩
  | reset seg rst => exact .inr ⟨.refl _, rfl, rfl⟩
  | read len => exact .inl ⟨TCPReceiver.later_popOutput _ len, rfl, rfl⟩
  | idle data none => exact .inl ⟨.refl _, rfl, rfl⟩

theorem Failed.call (h : c.Failed) (ready : c.Ready) (call : Call c op c') : c'.Failed := by
  rcases ready.call_marks call with ⟨hlater, hsender, hrst⟩ | ⟨hlater, hsender, hrst⟩
  · exact ⟨by rw [hsender, hrst, h.sender], by rw [hlater.error, hrst, h.receiver]⟩
  · exact ⟨by rw [hsender, hrst], by rw [hlater.error, hrst]; rfl⟩

end TCPConnection

/-! ## The receiver's summary -/

namespace TCPReceiverStateSummary

/-- What one call may make of a receiver's summary. -/
def next : TCPReceiverStateSummary → List TCPReceiverStateSummary
  | error => [error]
  | listen => [listen, synRecv, finRecv, error]
  | synRecv => [synRecv, finRecv, error]
  | finRecv => [finRecv, error]

theorem error_mem_next (s : TCPReceiverStateSummary) : error ∈ s.next := by
  cases s <;> decide

end TCPReceiverStateSummary

namespace TCPReceiver

/-- The receiver's summary, read off its marks. -/
theorem stateSummary_eq (r : TCPReceiver) : r.stateSummary =
    if r.streamOut.error then .error else if r.receivedSyn = false then .listen
    else if r.streamOut.isEnd then .finRecv else .synRecv := by
  unfold stateSummary ackno ByteStream.inputEnded
  cases r.receivedSyn <;> rfl

theorem stateSummary_error (r : TCPReceiver) :
    r.stateSummary = .error ↔ r.streamOut.error = true := by
  rw [stateSummary_eq]
  cases r.streamOut.error <;> cases r.receivedSyn <;> cases r.streamOut.isEnd <;> decide

/-- **A later receiver is summarised further down the diagram.** -/
theorem Later.stateSummary {r r' : TCPReceiver} (h : r.Later r') :
    r'.stateSummary ∈ r.stateSummary.next := by
  obtain ⟨hsyn, hended, herror⟩ := h
  rw [stateSummary_eq, stateSummary_eq, herror]
  clear herror
  generalize r.receivedSyn = syn, r'.receivedSyn = syn', r.streamOut.isEnd = ended,
    r'.streamOut.isEnd = ended', r.streamOut.error = error at *
  revert syn syn' ended ended' error
  decide

end TCPReceiver

/-! ## The sender's summary -/

namespace TCPSenderStateSummary

/-- What one call may make of a sender's summary. -/
def next : TCPSenderStateSummary → List TCPSenderStateSummary
  | error => [error]
  | closed => [closed, synSent, error]
  | synSent => [synSent, synAcked, finSent, finAcked, error]
  | synAcked => [synAcked, finSent, error]
  | finSent => [finSent, finAcked, error]
  | finAcked => [finAcked, error]

theorem error_mem_next (s : TCPSenderStateSummary) : error ∈ s.next := by
  cases s <;> decide

/-- The summary of a sender that has sent `sent` numbers, `acked` of them acknowledged in full, with or
without its FIN. -/
def tell (error fin : Bool) (sent acked : Nat) : TCPSenderStateSummary :=
  if error then .error
  else if sent = 0 then .closed
  else if acked = 0 then .synSent
  else if fin = false then .synAcked
  else if acked < sent then .finSent
  else .finAcked

section Tell

variable {fin : Bool} {sent acked : Nat}

theorem tell_closed : tell false fin sent acked = .closed ↔ sent = 0 := by
  unfold tell
  split_ifs <;> simp_all

theorem tell_synSent : tell false fin sent acked = .synSent ↔ sent ≠ 0 ∧ acked = 0 := by
  unfold tell
  split_ifs <;> simp_all

theorem tell_synAcked :
    tell false fin sent acked = .synAcked ↔ sent ≠ 0 ∧ acked ≠ 0 ∧ fin = false := by
  unfold tell
  split_ifs <;> simp_all

theorem tell_finSent :
    tell false fin sent acked = .finSent ↔ acked ≠ 0 ∧ fin = true ∧ acked < sent := by
  unfold tell
  split_ifs <;> simp_all

theorem tell_finAcked : tell false fin sent acked = .finAcked ↔
    sent ≠ 0 ∧ acked ≠ 0 ∧ fin = true ∧ sent ≤ acked := by
  unfold tell
  split_ifs <;> simp_all

end Tell

/-- A sender that sends nothing behind its FIN, and is acknowledged only what it sent before, moves along
the diagram. -/
theorem tell_next {error fin fin' : Bool} {sent sent' acked acked' : Nat} (grows : sent ≤ sent')
    (ahead : acked ≤ acked') (late : acked' ≤ sent) (stays : fin = true → fin' = true ∧ sent' = sent)
    (number : fin = false → fin' = true → sent < sent') :
    tell error fin' sent' acked' ∈ (tell error fin sent acked).next := by
  unfold tell
  cases error with
  | true => exact List.mem_singleton_self _
  | false =>
    cases fin with
    | true =>
      obtain ⟨rfl, rfl⟩ := stays rfl
      simp only [Bool.false_eq_true, if_false, Bool.true_eq_false]
      split_ifs <;> first | omega | decide
    | false =>
      cases fin' with
      | true =>
        have hmore := number rfl rfl
        simp only [Bool.false_eq_true, if_false, Bool.true_eq_false, if_true]
        split_ifs <;> first | omega | decide
      | false =>
        simp only [Bool.false_eq_true, if_false, if_true]
        split_ifs <;> first | omega | decide

end TCPSenderStateSummary

section Sender

variable {T T' : Bytes} {isn : WrappingInt32} {log new : List TCPSegment} {s s' : TCPSender}

/-- **The counters tell the marks.** -/
theorem Accounts.stateSummary_eq (h : Accounts T isn log s) :
    s.stateSummary = .tell s.stream.error s.finSent s.nextSeqno s.ackedNext := by
  have hflight := h.flight
  have hcounts := h.counts
  have hwritten := h.carries.written
  have hfin := h.finLast
  unfold TCPSender.stateSummary TCPSenderStateSummary.tell ByteStream.bytesWritten
  cases s.stream.error with
  | true => rfl
  | false =>
    simp only [Bool.false_eq_true, if_false]
    by_cases hnone : s.nextSeqno = 0
    · rw [if_pos hnone, if_pos hnone]
    · have hacked : s.nextSeqno = s.bytesInFlight ↔ s.ackedNext = 0 := by omega
      have hsyn : s.synSent = true := by
        by_contra hc
        rw [h.total, h.unsent (eq_false_of_ne_true hc)] at hnone
        exact hnone rfl
      rw [if_neg hnone, if_neg hnone]
      simp only [hacked]
      rw [hsyn, if_pos rfl] at hcounts
      -- without the FIN the number stays below the bytes written, the SYN and the FIN
      cases hsent : s.finSent with
      | true =>
        obtain ⟨-, heof⟩ := hfin hsent
        have hempty : s.stream.buf.length = 0 := by
          unfold ByteStream.eof at heof
          rw [Bool.and_eq_true, List.isEmpty_iff] at heof
          rw [heof.1, List.length_nil]
        rw [hsent, if_pos rfl] at hcounts
        have hbehind : ¬s.nextSeqno < s.stream.totalBytesWritten + 2 := by omega
        have hleft : s.bytesInFlight ≠ 0 ↔ s.ackedNext < s.nextSeqno := by omega
        simp only [heof, hbehind, hleft, Bool.not_true, Bool.false_eq_true, if_false, Bool.true_eq_false]
      | false =>
        rw [hsent, if_neg Bool.false_ne_true] at hcounts
        have hbefore : s.nextSeqno < s.stream.totalBytesWritten + 2 := by omega
        simp only [hbefore, if_true, ite_self]

/-- What is in flight when a call comes is all it can acknowledge. -/
structure TCPSender.Advances (s s' : TCPSender) : Prop where
  ahead : s.ackedNext ≤ s'.ackedNext
  late : s'.ackedNext ≤ s.nextSeqno

theorem Accounts.advances_refl (h : Accounts T isn log s) (same : s'.ackedNext = s.ackedNext) :
    s.Advances s' := by
  have hflight := h.flight
  exact ⟨by omega, by omega⟩

theorem Accounts.answer_advances (h : Accounts T isn log s) (inRange : s.nextSeqno < 2 ^ 64)
    (seg : TCPSegment) : s.Advances (s.answer seg) := by
  unfold TCPSender.answer
  split
  · rw [TCPSender.ackReceived_eq]
    generalize unwrap seg.header.ackno s.isn s.ackedNext = absAckno
    split
    · exact h.advances_refl rfl
    · have hacked := h.acceptAck inRange absAckno seg.header.win
      obtain ⟨⟨popped, -, hpopped, -⟩, hflight, -⟩ := h.acceptAck_cases inRange absAckno seg.header.win
      have hnext := s.acceptAck_nextSeqno absAckno seg.header.win
      have hfill := TCPSender.fillWindow_ackedNext hacked.finLast
      exact ⟨by omega, by omega⟩
  · split
    · exact h.advances_refl (TCPSender.fillWindow_ackedNext h.finLast)
    · exact h.advances_refl rfl

/-- A FIN takes a number. -/
theorem Books.fin_grows (h : Books T isn log s) (h' : Books T' isn (log ++ new) s')
    (before : s.finSent = false) (fin : s'.finSent = true) : s.nextSeqno < s'.nextSeqno := by
  have hlog := h.accounts.total
  have hlog' := h'.accounts.total
  rw [seqLen_append] at hlog'
  obtain ⟨seg, hseg, hflag⟩ := h.fin_new h' before fin
  obtain ⟨x, hx⟩ := exists_number (a := 0) hseg
  have hlen : x + seg.lengthInSequenceSpace ≤ 0 + seqLen new := (number_bounds hx).2.1
  have hone : 1 ≤ seg.lengthInSequenceSpace := by
    unfold TCPSegment.lengthInSequenceSpace
    rw [hflag]
    simp
  omega

/-- Between the books before a call and behind it the summary moves along the diagram. -/
theorem Books.stateSummary_next (h : Books T isn log s) (h' : Books T' isn (log ++ new) s')
    (advances : s.Advances s')
    (error : s'.stream.error = s.stream.error ∨ s'.stream.error = true) :
    s'.stateSummary ∈ s.stateSummary.next := by
  rw [h.accounts.stateSummary_eq, h'.accounts.stateSummary_eq]
  have hlog := h.accounts.total
  have hlog' := h'.accounts.total
  rw [seqLen_append] at hlog'
  rcases error with hsame | hfailed
  · rw [hsame]
    refine TCPSenderStateSummary.tell_next (by omega) advances.ahead advances.late (fun hfin => ?_) ?_
    · obtain ⟨seg, hseg, hflag⟩ := h.finLogged hfin
      exact ⟨(h'.fin_number (List.mem_append_left _ hseg) hflag).1, h.nextSeqno_eq h' hfin⟩
    · exact h.fin_grows h'
  · rw [hfailed]
    exact TCPSenderStateSummary.error_mem_next _

/-- A FIN is not acknowledged by the call that sends it. -/
theorem Books.fin_unacked (h : Books T isn log s) (h' : Books T' isn (log ++ new) s')
    (advances : s.Advances s') (before : s.finSent = false) : s'.stateSummary ≠ .finAcked := by
  rw [h'.accounts.stateSummary_eq]
  cases s'.stream.error with
  | true => exact nofun
  | false =>
    rw [ne_eq, TCPSenderStateSummary.tell_finAcked]
    rintro ⟨-, -, hfin, hall⟩
    have hgrows := h.fin_grows h' before hfin
    have hlate := advances.late
    omega

end Sender

/-! ## Runs -/

namespace TCPConnection

variable {c c' : TCPConnection} {op : Op} {T : Bytes} {isn : WrappingInt32} {log hist : List TCPSegment}
  {cfg : TCPConfig}

theorem Ledger.turn_advances (h : Ledger T isn log hist c) (sound : c.Sound)
    (inRange : c.sender.nextSeqno < 2 ^ 64) (turn : Turn c op c') : c.sender.Advances c'.sender := by
  have hacc := h.books.accounts
  have hrefl : ∀ {s : TCPSender}, s.ackedNext = c.sender.ackedNext → c.sender.Advances s := by
    intro s same
    obtain ⟨hahead, hlate⟩ := hacc.advances_refl same
    exact ⟨hahead, hlate⟩
  cases turn with
  | connect => exact hrefl (TCPSender.fillWindow_ackedNext sound.marked.finLast)
  | write data => exact hrefl (TCPSender.fillWindow_ackedNext (sound.marked.write data).finLast)
  | endInputStream => exact hrefl (TCPSender.fillWindow_ackedNext sound.marked.endInput.finLast)
  | tick ms alone =>
    refine hrefl ?_
    dsimp only
    rw [TCPSender.tick_frame]
  | handle seg kept =>
    obtain ⟨hahead, hlate⟩ := hacc.answer_advances inRange seg
    rw [TCPSender.answer_behind] at hahead hlate
    rw [(sound.handle seg).2.1, TCPSender.acknowledge_frame]
    exact ⟨hahead, hlate⟩
  | _ => exact hrefl rfl

/-- **A call acknowledges nothing that it sends itself.** -/
theorem Ledger.call_advances (h : Ledger T isn log hist c) (ready : c.Ready)
    (inRange : c.sender.nextSeqno < 2 ^ 64) (call : Call c op c') : c.sender.Advances c'.sender := by
  cases call with
  | turn turn =>
    obtain ⟨hahead, hlate⟩ := h.turn_advances ready.sound inRange turn
    rw [((ready.sound.turn turn).sendSegs).1.sender]
    exact ⟨hahead, hlate⟩
  | _ => exact ⟨(h.books.accounts.advances_refl rfl).ahead, (h.books.accounts.advances_refl rfl).late⟩

/-- What the summaries of a connection rest on. -/
structure Told (isn : WrappingInt32) (c : TCPConnection) : Prop where
  ready : c.Ready
  ledger : ∃ T log hist, Ledger T isn log hist c
  failed : c.Failed

theorem told_new (cfg : TCPConfig) : Told cfg.isn (new cfg) :=
  ⟨ready_new cfg, ⟨_, _, _, ledger_new cfg⟩, failed_new cfg⟩

theorem Told.step (h : Told isn c) (few : c.sender.nextSeqno < 2 ^ 63) (op : Op) :
    Told isn (c.step op) := by
  obtain ⟨T, log, hist, hledger⟩ := h.ledger
  obtain ⟨T', new, queue, hledger', -, -⟩ := hledger.call h.ready few (c.call_step op)
  exact ⟨h.ready.step op, ⟨T', _, _, hledger'⟩, h.failed.call h.ready (c.call_step op)⟩

/-- Fewer than `2 ^ 63` sequence numbers are used. -/
def Short (c : TCPConnection) (_ : Op) : Prop := c.sender.nextSeqno < 2 ^ 63

instance (c : TCPConnection) (op : Op) : Decidable (c.Short op) := inferInstanceAs (Decidable (_ < _))

theorem told_of_run (run : Runs.Reach step Short (new cfg) c) : Told cfg.isn c :=
  run.invariant (Told cfg.isn) (told_new cfg) fun _ op h short => h.step short op

/-- What the sender's summary says, in terms of what the sender has done. -/
theorem Told.summary (h : Told isn c) :
    c.sender.stateSummary = .tell c.rst c.sender.finSent c.sender.nextSeqno c.sender.ackedNext := by
  obtain ⟨T, log, hist, hledger⟩ := h.ledger
  have heq : c.sender.stateSummary = _ := hledger.books.accounts.stateSummary_eq
  rw [heq, ← h.failed.sender]
  rfl

/-- **The summaries move along their diagrams**, in every run that uses fewer than `2 ^ 63` sequence
numbers and whatever segments arrive; and no call both sends the FIN and sees it acknowledged. Either is an
error exactly when the connection was reset. -/
theorem summaries_follow (run : Runs.Reach step Short (new cfg) c) (op : Op) (short : c.Short op) :
    (c.step op).sender.stateSummary ∈ c.sender.stateSummary.next ∧
      (c.sender.finSent = false → (c.step op).sender.stateSummary ≠ .finAcked) ∧
      (c.step op).receiver.stateSummary ∈ c.receiver.stateSummary.next ∧
      (c.sender.stateSummary = .error ↔ c.rst = true) ∧
      (c.receiver.stateSummary = .error ↔ c.rst = true) := by
  have htold := told_of_run run
  obtain ⟨T, log, hist, hledger⟩ := htold.ledger
  have hcall := c.call_step op
  have hrange : c.sender.nextSeqno < 2 ^ 64 := Nat.lt_trans short (by decide)
  obtain ⟨T', new, queue, hledger', -, -⟩ := hledger.call htold.ready short hcall
  obtain ⟨hahead, hlate⟩ := hledger.call_advances htold.ready hrange hcall
  have hmarks := htold.ready.call_marks hcall
  refine ⟨?_, ?_, ?_, ?_, ?_⟩
  · have hnext : ((c.step op).sender.behind (hist ++ queue)).stateSummary ∈
        (c.sender.behind hist).stateSummary.next := by
      refine hledger.books.stateSummary_next hledger'.books ⟨hahead, hlate⟩ ?_
      exact hmarks.imp (fun hkept => hkept.2.1) fun hreset => hreset.2.1
    exact hnext
  · intro hbefore
    have hunacked : ((c.step op).sender.behind (hist ++ queue)).stateSummary ≠ .finAcked :=
      hledger.books.fin_unacked hledger'.books ⟨hahead, hlate⟩ hbefore
    exact hunacked
  · rcases hmarks with ⟨hlater, -, -⟩ | ⟨hlater, -, -⟩
    · exact hlater.stateSummary
    · have herror := (c.step op).receiver.stateSummary_error.mpr hlater.error
      rw [herror]
      exact TCPReceiverStateSummary.error_mem_next _
  · rw [htold.summary]
    unfold TCPSenderStateSummary.tell
    cases c.rst with
    | true => simp
    | false => simp only [Bool.false_eq_true, if_false, iff_false]; split_ifs <;> decide
  · rw [TCPReceiver.stateSummary_error, htold.failed.receiver]

/-- A peer that acknowledges nothing opens its window: a FIN goes out beside the SYN, and one acknowledgment
covers both. -/
theorem summaries_follow_leap :
    let open' : TCPSegment := { header := { ack := true, ackno := ⟨0⟩, win := 10 } }
    let all : TCPSegment := { header := { ack := true, ackno := ⟨2⟩, win := 10 } }
    let c := [.connect, .endInputStream, .segmentReceived open'].foldl step (new {})
    c.sender.stateSummary = .synSent ∧
      (c.step (.segmentReceived all)).sender.stateSummary = .finAcked ∧
      (c.step (.segmentReceived all)).sender.stateSummary ∈ c.sender.stateSummary.next := by
  intro open' all c
  have run : Runs.Reach step Short (new {}) c := Runs.reach_foldl .start (by decide +kernel)
  exact ⟨by decide +kernel, by decide +kernel,
    (summaries_follow run (.segmentReceived all) (by decide +kernel)).1⟩

/-- **The sender's summary tells what the sender has done**, although it is computed from the counters and
the stream alone. -/
theorem summary_tells (run : Runs.Reach step Short (new cfg) c) (noRst : c.rst = false) :
    (c.sender.stateSummary = .closed ↔ c.sender.synSent = false) ∧
      (c.sender.stateSummary = .synSent ↔ c.sender.synSent = true ∧ c.sender.ackedNext = 0) ∧
      (c.sender.stateSummary = .synAcked ↔ 0 < c.sender.ackedNext ∧ c.sender.finSent = false) ∧
      (c.sender.stateSummary = .finSent ↔
        0 < c.sender.ackedNext ∧ c.sender.finSent = true ∧ 0 < c.sender.bytesInFlight) ∧
      (c.sender.stateSummary = .finAcked ↔ c.sender.finSent = true ∧ c.sender.bytesInFlight = 0) := by
  have htold := told_of_run run
  obtain ⟨T, log, hist, hledger⟩ := htold.ledger
  have hflight : c.sender.nextSeqno = c.sender.ackedNext + c.sender.bytesInFlight :=
    hledger.books.accounts.flight
  have hcounts : c.sender.nextSeqno = (if c.sender.synSent then 1 else 0) +
      c.sender.stream.totalBytesRead + (if c.sender.finSent then 1 else 0) := hledger.books.accounts.counts
  have hunsent : c.sender.synSent = false ↔ c.sender.nextSeqno = 0 := by
    refine ⟨fun hsyn => ?_, fun hnone => ?_⟩
    · have htotal : c.sender.nextSeqno = seqLen log := hledger.books.accounts.total
      rw [htotal, hledger.books.accounts.unsent hsyn, seqLen_nil]
    · by_contra hsyn
      rw [eq_true_of_ne_false hsyn, if_pos rfl] at hcounts
      omega
  have hsent : c.sender.synSent = true ↔ c.sender.nextSeqno ≠ 0 := by
    rw [ne_eq, ← hunsent, Bool.not_eq_false]
  have hfin : c.sender.finSent = true → c.sender.nextSeqno ≠ 0 ∧
      (c.sender.bytesInFlight = 0 → c.sender.ackedNext ≠ 0) := by
    intro hfin
    rw [hfin, if_pos rfl] at hcounts
    omega
  rw [htold.summary, noRst, hunsent, hsent]
  generalize c.sender.nextSeqno = sent, c.sender.ackedNext = acked, c.sender.bytesInFlight = flight,
    c.sender.finSent = fin at *
  subst hflight
  refine ⟨TCPSenderStateSummary.tell_closed, TCPSenderStateSummary.tell_synSent, ?_, ?_, ?_⟩
  · rw [TCPSenderStateSummary.tell_synAcked]
    exact ⟨fun h => ⟨by omega, h.2.2⟩, fun h => ⟨by omega, by omega, h.2⟩⟩
  · rw [TCPSenderStateSummary.tell_finSent]
    exact ⟨fun h => ⟨by omega, h.2.1, by omega⟩, fun h => ⟨by omega, h.2.1, by omega⟩⟩
  · rw [TCPSenderStateSummary.tell_finAcked]
    refine ⟨fun h => ⟨h.2.2.1, by omega⟩, fun h => ?_⟩
    have hsome := hfin h.1
    exact ⟨by omega, hsome.2 h.2, h.1, by omega⟩

/-- Two bytes and the FIN are out, and the first byte is acknowledged. -/
theorem summary_tells_partly :
    let ack : TCPSegment := { header := { ack := true, ackno := ⟨2⟩, win := 10 } }
    let c := [.connect, .segmentReceived { header := { ack := true, ackno := ⟨1⟩, win := 10 } }, .write [1],
      .write [2], .endInputStream, .segmentReceived ack].foldl step (new {})
    c.sender.stateSummary = .finSent ∧ 0 < c.sender.ackedNext ∧ 0 < c.sender.bytesInFlight := by
  intro ack c
  have run : Runs.Reach step Short (new {}) c := Runs.reach_foldl .start (by decide +kernel)
  obtain ⟨-, -, -, hfin, -⟩ := summary_tells run (by decide +kernel)
  exact ⟨by decide +kernel, (hfin.mp (by decide +kernel)).1, (hfin.mp (by decide +kernel)).2.2⟩

/-! ## The end -/

/-- A connection with both FINs acknowledged lingers, or has ended its inbound stream. -/
def Rests (c : TCPConnection) : Prop :=
  c.selfFinAcked = true → c.peerFinAcking = true →
    c.lingering = true ∨ c.receiver.streamOut.isEnd = true

theorem rests_checkLinger (c : TCPConnection) : c.checkLinger.Rests := by
  unfold checkLinger
  split
  · split
    · exact fun _ _ => .inl rfl
    · exact fun _ _ => .inr rfl
  next hopen => exact fun hself hpeer => absurd ⟨hself, hpeer⟩ hopen

theorem Rests.sendSegs (h : c.Rests) : c.sendSegs.Rests := by
  refine sendSegs_rule (fun c seg h => ?_) (fun c _ => rests_checkLinger _) (fun _ _ _ h => h) h
  rw [noteSelfFin_frame]
  exact h

theorem Rests.checkRcvFin (h : c.Rests) (seg : TCPSegment) : (c.checkRcvFin seg).Rests := by
  refine checkRcvFin_rule (fun c seg h => ?_) (fun c _ => rests_checkLinger _) h seg
  rw [notePeerFin_frame]
  exact h

theorem Rests.turn (h : c.Rests) (turn : Turn c op c') : c'.Rests := by
  cases turn with
  | expire ms lingering due => exact fun _ _ => .inr rfl
  | handle seg kept =>
    intro hself hpeer
    exact (h.checkRcvFin seg hself hpeer).imp_right (TCPReceiver.later_segmentReceived _ seg).ended
  | _ => exact h

theorem Rests.call (h : c.Rests) (call : Call c op c') : c'.Rests := by
  cases call with
  | turn turn => exact (h.turn turn).sendSegs
  | _ => exact h

/-- **A connection that is over has an official name**, in every run whose segments are regular and that
uses fewer than `2 ^ 63` sequence numbers each way: it is told as RESET or as CLOSED. -/
theorem over_iff_official (run : Runs.Reach step (fun c op => c.Few ∧ Regular c op) (new cfg) c) :
    c.active = false ↔ c.state = .official (if c.rst then .reset else .closed) := by
  obtain ⟨htold, hrests, T, log, hist, hclosing⟩ : Told cfg.isn c ∧ c.Rests ∧
      ∃ T log hist, Closing T cfg.isn log hist c := by
    refine run.invariant (fun c => Told cfg.isn c ∧ c.Rests ∧ ∃ T log hist, Closing T cfg.isn log hist c)
      ⟨told_new cfg, nofun, _, _, _, closing_new cfg⟩ ?_
    rintro c op ⟨htold, hrests, T, log, hist, hclosing⟩ ⟨few, regular⟩
    exact ⟨htold.step few.1 op, hrests.call (c.call_step op),
      hclosing.call htold.ready few regular (c.call_step op)⟩
  refine ⟨fun hover => ?_, fun htells => ?_⟩
  · have hstate : c.state = ⟨c.sender.stateSummary, c.receiver.stateSummary, false, false⟩ := by
      unfold state TCPState.of
      rw [hover]
      rfl
    rw [hstate, htold.summary, TCPReceiver.stateSummary_eq, htold.failed.receiver]
    cases hrst : c.rst with
    | true => rfl
    | false =>
      unfold active at hover
      rw [hrst, Bool.not_false, Bool.and_true, Bool.not_eq_false', Bool.and_eq_true, Bool.and_eq_true,
        Bool.not_eq_true'] at hover
      obtain ⟨⟨hself, hpeer⟩, hgone⟩ := hover
      have hended : c.receiver.streamOut.isEnd = true :=
        (hrests hself hpeer).resolve_left fun hc => Bool.false_ne_true (hgone.symm.trans hc)
      have hfin := htold.ready.sound.acked hself
      have hflight : c.sender.nextSeqno = c.sender.ackedNext + c.sender.bytesInFlight :=
        hclosing.ledger.books.accounts.flight
      have hcounts : c.sender.nextSeqno = (if c.sender.synSent then 1 else 0) +
          c.sender.stream.totalBytesRead + (if c.sender.finSent then 1 else 0) :=
        hclosing.ledger.books.accounts.counts
      have hnone := hclosing.acked hself
      rw [hfin, if_pos rfl] at hcounts
      have hsender := TCPSenderStateSummary.tell_finAcked.mpr
        (show c.sender.nextSeqno ≠ 0 ∧ c.sender.ackedNext ≠ 0 ∧ c.sender.finSent = true ∧
          c.sender.nextSeqno ≤ c.sender.ackedNext from ⟨by omega, by omega, hfin, by omega⟩)
      rw [hsender, (hclosing.acking hpeer).syn, hended]
      rfl
  · have hactive := congrArg TCPState.active htells
    have hover : c.active = (TCPState.official (if c.rst then .reset else .closed)).active := hactive
    rw [hover]
    cases c.rst with
    | true => rfl
    | false => rfl

/-- A passive close ends as CLOSED. -/
theorem over_iff_official_passive :
    let syn : TCPSegment := { header := { seqno := ⟨7⟩, syn := true, win := 10 } }
    let ack : TCPSegment := { header := { seqno := ⟨8⟩, ack := true, ackno := ⟨1⟩, win := 10 } }
    let fin : TCPSegment :=
      { header := { seqno := ⟨8⟩, ack := true, ackno := ⟨1⟩, win := 10, fin := true } }
    let last : TCPSegment := { header := { seqno := ⟨9⟩, ack := true, ackno := ⟨2⟩, win := 10 } }
    let c := [.segmentReceived syn, .segmentReceived ack, .segmentReceived fin, .endInputStream,
      .segmentReceived last].foldl step (new { recvCapacity := 8, sendCapacity := 8 })
    c.active = false ∧ c.state = .official .closed := by
  intro syn ack fin last c
  have run : Runs.Reach step (fun c op => c.Few ∧ Regular c op)
      (new { recvCapacity := 8, sendCapacity := 8 }) c := Runs.reach_foldl .start (by decide +kernel)
  have hover : c.active = false := by decide +kernel
  have hrst : c.rst = false := by decide +kernel
  have hstate := (over_iff_official run).mp hover
  rw [hrst] at hstate
  exact ⟨hover, hstate⟩

end TCPConnection

end Sponge
