import Sponge.Laws.Tcp.Connection
import Sponge.Laws.Tcp.EndToEnd

/-!
# Laws.Tcp.Books — the sender's books when its queue is drained

A connection drains its sender's queue at the end of every call, so the accounts of `Sending`, which need
the whole history, are kept for the sender with its history put back in front of the queue (`behind`).
No operation of the sender looks at the queue, so each of them commutes with that.

`Books` adds to the accounts what the connection's own FIN bookkeeping rests on: less than `2 ^ 16`
sequence numbers are in flight, and a FIN that was sent is in the log. With it an acknowledgment of the
number after the FIN leaves nothing in flight (`answer_all`).
-/

namespace Sponge

open Word64 (add add_eq)

/-! ## A sender with its history -/

namespace TCPSender

/-- The sender with what was drained put back in front of its queue. -/
def behind (s : TCPSender) (hist : List TCPSegment) : TCPSender :=
  { s with segmentsOut := hist ++ s.segmentsOut }

variable (s : TCPSender) (hist : List TCPSegment)

theorem drained_behind : s.drained.behind (hist ++ s.segmentsOut) = s.behind hist := by
  unfold drained behind
  dsimp only
  rw [List.append_nil]

theorem queue_behind (seg : TCPSegment) : (s.behind hist).queue seg = (s.queue seg).behind hist := by
  unfold queue behind
  dsimp only
  rw [List.append_assoc]

theorem fillCondition_behind :
    (s.behind hist).fillCondition =
      (s.fillCondition.1, s.fillCondition.2.1, s.fillCondition.2.2.behind hist) := by
  unfold fillCondition
  show (if (!s.finSent && s.stream.eof) || !s.synSent then _ else _) = _
  split <;> rfl

theorem fillBody_behind (data : Bytes) :
    (s.behind hist).fillBody data = ((s.fillBody data).1.behind hist, (s.fillBody data).2) := by
  rw [fillBody_eq, fillBody_eq]
  show (if s.peerWindowSize < (s.fresh data s.stream.eof).lengthInSequenceSpace then
      if (s.fresh data false).lengthInSequenceSpace = 0 then _
      else ({ s with synSent := true, finSent := false }.behind hist |>.queue _, _)
    else if (s.fresh data s.stream.eof).lengthInSequenceSpace = 0 then _
    else ({ s with synSent := true, finSent := s.finSent || s.stream.eof }.behind hist |>.queue _, _)) = _
  rw [queue_behind, queue_behind]
  split
  · split <;> rfl
  · split <;> rfl

theorem fillTurn_behind :
    (s.behind hist).fillTurn = (s.fillTurn.1.behind hist, s.fillTurn.2) := by
  unfold fillTurn
  rw [fillCondition_behind]
  obtain ⟨goOn, data, taken⟩ := s.fillCondition
  dsimp only
  split
  · exact fillBody_behind taken hist data
  · rfl

/-- Filling the window does not look at the queue. -/
theorem fillWindow_behind : (s.behind hist).fillWindow = s.fillWindow.behind hist :=
  fillLoop_map (fun s => fillTurn_behind s hist) (s.fillBound + 1) s

theorem ackReceived_behind (ackno : WrappingInt32) (windowSize : UInt16) :
    (s.behind hist).ackReceived ackno windowSize = (s.ackReceived ackno windowSize).behind hist := by
  rw [ackReceived_eq, ackReceived_eq]
  show (if s.nextSeqno < unwrap ackno s.isn s.ackedNext then _
    else ((s.acceptAck (unwrap ackno s.isn s.ackedNext) windowSize).behind hist).fillWindow) = _
  rw [fillWindow_behind]
  split <;> rfl

theorem answer_behind (seg : TCPSegment) : (s.behind hist).answer seg = (s.answer seg).behind hist := by
  unfold answer
  rw [ackReceived_behind, fillWindow_behind]
  split
  · rfl
  · split <;> rfl

theorem tick_behind (ms : Nat) : (s.behind hist).tick ms = (s.tick ms).behind hist := by
  unfold tick behind
  dsimp only
  split
  · rw [List.append_assoc]
  · rfl

theorem sendEmptySegment_behind :
    (s.behind hist).sendEmptySegment = s.sendEmptySegment.behind hist := by
  unfold sendEmptySegment behind
  dsimp only
  rw [List.append_assoc]
  rfl

end TCPSender

/-! ## The books -/

/-- The accounts of a sender, and what holds of a sender whose peer's window is 16 bits wide. -/
structure Books (T : Bytes) (isn : WrappingInt32) (log : List TCPSegment) (s : TCPSender) : Prop where
  accounts : Accounts T isn log s
  narrow : s.Reaches (s.ackedNext + 65535)
  short : ∀ seg ∈ log, seg.lengthInSequenceSpace ≤ 65535
  finLogged : s.finSent = true → ∃ seg ∈ log, seg.header.fin = true
  plain : ∀ seg, seg ∈ log ∨ seg ∈ s.segmentsOut → seg.header.ack = false

namespace Books

variable {T : Bytes} {isn : WrappingInt32} {log : List TCPSegment} {s : TCPSender}

theorem new (capacity : Nat) (retxTimeout : UInt16) (isn : WrappingInt32) :
    Books [] isn [] (TCPSender.new capacity retxTimeout isn) where
  accounts := accounts_new capacity retxTimeout isn
  narrow := ⟨by show 0 + 1 ≤ 0 + 65535; omega, fun _ => Nat.le_refl 1⟩
  short := fun _ hseg => absurd hseg List.not_mem_nil
  finLogged := nofun
  plain := fun _ hseg => hseg.elim (absurd · List.not_mem_nil) (absurd · List.not_mem_nil)

theorem bytesInFlight_le (h : Books T isn log s) : s.bytesInFlight ≤ 65535 := by
  have hbelow := h.narrow.below
  have hflight := h.accounts.flight
  omega

/-- A FIN in the log was sent, and ends at the next sequence number. -/
theorem fin_number (h : Books T isn log s) {seg : TCPSegment} (logged : seg ∈ log)
    (fin : seg.header.fin = true) : s.finSent = true ∧
      ∃ x, seg.header.seqno = wrap x isn ∧ x + seg.lengthInSequenceSpace = s.nextSeqno := by
  obtain ⟨x, hx⟩ := exists_number (a := 0) logged
  have hsent := h.accounts.each _ hx
  exact ⟨(hsent.fin fin).1, x, hsent.seqno, (hsent.fin fin).2⟩

/-- A FIN in the queue is in the log. -/
theorem fin_logged (h : Books T isn log s) {seg : TCPSegment} (queued : seg ∈ s.segmentsOut)
    (fin : seg.header.fin = true) : seg ∈ log := by
  refine (h.accounts.outs seg queued).resolve_right fun hblank => ?_
  rw [(seg.blank_of_length hblank).2.2] at fin
  cases fin

/-- The number after the own FIN, as the connection computes it from a segment it sends. -/
theorem fin_stop (h : Books T isn log s) (inRange : s.nextSeqno < 2 ^ 64) {seg : TCPSegment}
    (queued : seg ∈ s.segmentsOut) (fin : seg.header.fin = true) :
    add (unwrap seg.header.seqno isn s.nextSeqno) seg.lengthInSequenceSpace = s.nextSeqno := by
  have hlogged := h.fin_logged queued fin
  obtain ⟨-, x, hseqno, hstop⟩ := h.fin_number hlogged fin
  have hlen := h.short seg hlogged
  rw [hseqno, unwrap_wrap isn (by omega) (by omega) (by omega), add_eq (by omega), hstop]

/-! ### The operations -/

theorem send (h : Books T isn log s) (hfin : s.finSent = false) {data : Bytes} {fin : Bool}
    (sendable : s.Sendable data fin) : Books T isn (log ++ [s.fresh data fin]) (s.send data fin) := by
  have hlen : (s.fresh data fin).lengthInSequenceSpace ≤ 65535 := by
    have hbelow := h.narrow.below
    have hflight := h.accounts.flight
    rcases sendable.fits with hfits | ⟨hsyn, hbare⟩
    · omega
    · rw [TCPSender.length_fresh, sendable.synAlone hsyn, hsyn, hbare]
      decide
  refine ⟨h.accounts.send hfin sendable, h.narrow.send sendable, fun seg hseg => ?_,
    fun hf => ⟨_, List.mem_append_right _ (List.mem_singleton_self _), hf⟩, fun seg hseg => ?_⟩
  · rcases List.mem_append.mp hseg with hseg | hseg
    · exact h.short seg hseg
    · rw [List.mem_singleton.mp hseg]
      exact hlen
  · have hsplit : (seg ∈ log ∨ seg ∈ s.segmentsOut) ∨ seg ∈ [s.fresh data fin] := by
      rcases hseg with hseg | hseg
      · exact (List.mem_append.mp hseg).imp_left .inl
      · exact (List.mem_append.mp hseg).imp_left .inr
    rcases hsplit with hold | hnew
    · exact h.plain seg hold
    · rw [List.mem_singleton.mp hnew]
      rfl

theorem fillWindow (h : Books T isn log s) : ∃ new,
    s.fillWindow.segmentsOut = s.segmentsOut ++ new ∧ Books T isn (log ++ new) s.fillWindow :=
  TCPSender.fillLoop_rule (fun _ _ h => h.accounts.finLast)
    (fun _ _ _ _ h hfin hsend => h.send hfin hsend) _ _ h

/-- One call sends less than `2 ^ 16` numbers. -/
theorem fillWindow_nextSeqno (h : Books T isn log s) :
    s.fillWindow.nextSeqno ≤ s.nextSeqno + 65535 := by
  obtain ⟨new, -, hbooks⟩ := h.fillWindow
  have hbelow := hbooks.narrow.below
  have hflight := h.accounts.flight
  rw [TCPSender.fillWindow_ackedNext h.accounts.finLast] at hbelow
  omega

theorem acceptAck (h : Books T isn log s) (inRange : s.nextSeqno < 2 ^ 64) (absAckno : Nat)
    (windowSize : UInt16) : Books T isn log (s.acceptAck absAckno windowSize) := by
  obtain ⟨⟨popped, -, hacked, -⟩, hflight, hwindow⟩ :=
    h.accounts.acceptAck_cases inRange absAckno windowSize
  have hbelow := h.narrow.below
  have hbefore := h.accounts.flight
  have hnext := s.acceptAck_nextSeqno absAckno windowSize
  have hsyn : (s.acceptAck absAckno windowSize).synSent = s.synSent := rfl
  have hwidth := windowSize.toNat_lt
  refine ⟨h.accounts.acceptAck inRange absAckno windowSize, ⟨?_, fun hunsent => ?_⟩, h.short,
    h.finLogged, h.plain⟩
  · omega
  · have hnone := h.accounts.total
    rw [h.accounts.unsent (hsyn ▸ hunsent), seqLen_nil] at hnone
    omega

theorem note (h : Books T isn log s) (receivedWindowSize : Nat) (timer : Timer) :
    Books T isn log { s with receivedWindowSize, timer } :=
  ⟨h.accounts.note receivedWindowSize timer, ⟨h.narrow.below, h.narrow.room⟩, h.short, h.finLogged,
    h.plain⟩

theorem ackReceived (h : Books T isn log s) (inRange : s.nextSeqno < 2 ^ 64) (ackno : WrappingInt32)
    (windowSize : UInt16) : ∃ new, (s.ackReceived ackno windowSize).segmentsOut = s.segmentsOut ++ new ∧
      Books T isn (log ++ new) (s.ackReceived ackno windowSize) := by
  rw [TCPSender.ackReceived_eq]
  generalize unwrap ackno s.isn s.ackedNext = absAckno
  split
  · exact ⟨[], (List.append_nil _).symm, (List.append_nil log).symm ▸ h.note _ _⟩
  · exact (h.acceptAck inRange absAckno windowSize).fillWindow

theorem answer (h : Books T isn log s) (inRange : s.nextSeqno < 2 ^ 64) (seg : TCPSegment) :
    ∃ new, (s.answer seg).segmentsOut = s.segmentsOut ++ new ∧
      Books T isn (log ++ new) (s.answer seg) := by
  unfold TCPSender.answer
  split
  · exact h.ackReceived inRange _ _
  · split
    · exact h.fillWindow
    · exact ⟨[], (List.append_nil _).symm, (List.append_nil log).symm ▸ h⟩

theorem answer_nextSeqno (h : Books T isn log s) (inRange : s.nextSeqno < 2 ^ 64) (seg : TCPSegment) :
    (s.answer seg).nextSeqno ≤ s.nextSeqno + 65535 := by
  unfold TCPSender.answer
  split
  · rw [TCPSender.ackReceived_eq]
    split
    · exact Nat.le_add_right s.nextSeqno 65535
    · exact (h.acceptAck inRange _ seg.header.win).fillWindow_nextSeqno
  · split
    · exact h.fillWindow_nextSeqno
    · exact Nat.le_add_right _ _

/-- Queueing again what is logged, or a segment that acknowledges nothing, is plain. -/
theorem plain_append (h : Books T isn log s) {again : List TCPSegment}
    (plain : ∀ seg ∈ again, seg.header.ack = false) :
    ∀ seg, seg ∈ log ∨ seg ∈ s.segmentsOut ++ again → seg.header.ack = false := by
  intro seg hseg
  rcases hseg with hseg | hseg
  · exact h.plain seg (.inl hseg)
  · rcases List.mem_append.mp hseg with hseg | hseg
    · exact h.plain seg (.inr hseg)
    · exact plain seg hseg

theorem sendEmptySegment (h : Books T isn log s) : Books T isn log s.sendEmptySegment :=
  ⟨h.accounts.sendEmptySegment, ⟨h.narrow.below, h.narrow.room⟩, h.short, h.finLogged,
    h.plain_append fun seg hseg => by rw [List.mem_singleton.mp hseg]; rfl⟩

theorem tick (h : Books T isn log s) (ms : Nat) : Books T isn log (s.tick ms) := by
  obtain ⟨again, hqueue, hagain⟩ := s.tick_queue ms
  have haccounts := h.accounts.tick ms
  rw [TCPSender.tick_frame, hqueue] at haccounts ⊢
  refine ⟨haccounts, ⟨h.narrow.below, h.narrow.room⟩, h.short, h.finLogged,
    h.plain_append fun seg hseg => h.plain seg (.inl ?_)⟩
  obtain ⟨acked, hlog, -⟩ := h.accounts.held
  rw [hlog]
  exact List.mem_append_right _ (hagain seg hseg)

theorem write (h : Books T isn log s) (data : Bytes) :
    Books (T ++ data.take (s.stream.write data).2) isn log (s.write data) :=
  ⟨h.accounts.write data, ⟨h.narrow.below, h.narrow.room⟩, h.short, h.finLogged, h.plain⟩

theorem endInput (h : Books T isn log s) : Books T isn log s.endInput :=
  ⟨h.accounts.endInput, ⟨h.narrow.below, h.narrow.room⟩, h.short, h.finLogged, h.plain⟩

theorem setError (h : Books T isn log s) : Books T isn log s.setError := by
  have hacc := h.accounts
  refine ⟨⟨hacc.isn_eq, ⟨hacc.carries.written, hacc.carries.buffered, hacc.carries.within⟩, hacc.whole,
    hacc.total, hacc.held, hacc.flight, hacc.counts, hacc.unsent, hacc.finLast, hacc.payloads,
    fun p hp => (hacc.each p hp).congr rfl rfl rfl, hacc.outs, hacc.order⟩,
    ⟨h.narrow.below, h.narrow.room⟩, h.short, h.finLogged, h.plain⟩

/-! ### The end -/

/-- Behind a FIN the next sequence number stays. -/
theorem nextSeqno_eq (h : Books T isn log s) {T' : Bytes} {new : List TCPSegment} {s' : TCPSender}
    (h' : Books T' isn (log ++ new) s') (fin : s.finSent = true) : s'.nextSeqno = s.nextSeqno := by
  obtain ⟨seg, hseg, hfin⟩ := h.finLogged fin
  obtain ⟨x, hx⟩ := exists_number (a := 0) hseg
  have hx' : (x, seg) ∈ number 0 (log ++ new) := by
    rw [number_append]
    exact List.mem_append_left _ hx
  exact ((h'.accounts.each _ hx').fin hfin).2.symm.trans ((h.accounts.each _ hx).fin hfin).2

/-- A FIN that was sent meanwhile is among the new segments. -/
theorem fin_new {T' : Bytes} {new : List TCPSegment} {s' : TCPSender} (h : Books T isn log s)
    (h' : Books T' isn (log ++ new) s') (before : s.finSent = false) (fin : s'.finSent = true) :
    ∃ seg ∈ new, seg.header.fin = true := by
  obtain ⟨seg, hseg, hflag⟩ := h'.finLogged fin
  rcases List.mem_append.mp hseg with hold | hnew
  · have hsent := (h.fin_number hold hflag).1
    rw [before] at hsent
    cases hsent
  · exact ⟨seg, hnew, hflag⟩

/-- An acknowledgment of everything outstanding pops all of it. -/
theorem ackLoop_all (isn : WrappingInt32) {absAckno : Nat} {l : List TCPSegment} {a : Nat}
    (bytesInFlight : Nat) (newData : Bool)
    (numbered : ∀ p ∈ number a l, p.2.header.seqno = wrap p.1 isn) (inRange : absAckno < 2 ^ 64)
    (all : a + seqLen l = absAckno) :
    (TCPSender.ackLoop isn absAckno l a bytesInFlight newData).2.1 = absAckno := by
  induction l generalizing a bytesInFlight newData with
  | nil => exact all
  | cons head rest ih =>
    rw [seqLen_cons] at all
    have hhead : unwrap head.header.seqno isn a = a := unwrap_head numbered (by omega)
    rw [TCPSender.ackLoop, hhead]
    split
    next hlt =>
      rw [if_pos (by omega)]
      exact ih _ true (fun p hp => numbered p (List.mem_cons_of_mem _ hp)) (by omega)
    next hge =>
      show a = absAckno
      omega

/-- Once everything is acknowledged behind the FIN, an acknowledgment leaves nothing in flight. -/
theorem acceptAck_all (h : Books T isn log s) (inRange : s.nextSeqno < 2 ^ 64) {absAckno : Nat}
    (windowSize : UInt16) (all : s.bytesInFlight = 0 ∨ absAckno = s.nextSeqno) :
    (s.acceptAck absAckno windowSize).bytesInFlight = 0 := by
  obtain ⟨⟨popped, -, hacked, -⟩, hflight, -⟩ :=
    h.accounts.acceptAck_cases inRange absAckno windowSize
  have hbefore := h.accounts.flight
  have hnext := s.acceptAck_nextSeqno absAckno windowSize
  rcases all with hnone | rfl
  · omega
  · have hall : (s.acceptAck s.nextSeqno windowSize).ackedNext = s.nextSeqno := by
      refine ackLoop_all s.isn s.bytesInFlight false
        (h.accounts.isn_eq ▸ h.accounts.outstanding_numbered) inRange ?_
      rw [h.accounts.outstanding_seqLen, hbefore]
    omega

/-- **Nothing is in flight behind an acknowledged FIN**, if the acknowledgment is for the number after the
FIN exactly, or nothing was in flight before. -/
theorem answer_all (h : Books T isn log s) (inRange : s.nextSeqno < 2 ^ 64) (fin : s.finSent = true)
    {seg : TCPSegment} (all : s.bytesInFlight = 0 ∨
      seg.header.ack = true ∧ unwrap seg.header.ackno isn s.nextSeqno = s.nextSeqno) :
    (s.answer seg).bytesInFlight = 0 := by
  have hflight := h.accounts.flight
  have hfew := h.bytesInFlight_le
  have hbefore : ¬seg.header.ack = true → s.bytesInFlight = 0 :=
    fun hack => all.resolve_right fun hc => hack hc.1
  unfold TCPSender.answer
  split
  next hack =>
    have habs : s.bytesInFlight = 0 ∨ unwrap seg.header.ackno s.isn s.ackedNext = s.nextSeqno := by
      rcases all with hnone | ⟨-, heq⟩
      · exact .inl hnone
      · -- the number is near the first one not acknowledged, so both checkpoints find it
        have hackno : seg.header.ackno = wrap s.nextSeqno isn := by
          rw [← heq, heq]
          exact (wrap_unwrap seg.header.ackno isn s.nextSeqno).symm.trans (congrArg (wrap · isn) heq)
        right
        rw [hackno, h.accounts.isn_eq]
        exact unwrap_wrap isn (by omega) (by omega) inRange
    rw [TCPSender.ackReceived_eq]
    generalize unwrap seg.header.ackno s.isn s.ackedNext = absAckno at habs ⊢
    split
    next hbeyond =>
      show s.bytesInFlight = 0
      omega
    next =>
      have hacc := h.acceptAck inRange absAckno seg.header.win
      rw [TCPSender.fillWindow_of_finSent hacc.accounts.finLast fin]
      exact h.acceptAck_all inRange seg.header.win habs
  next hack =>
    split
    · rw [TCPSender.fillWindow_of_finSent h.accounts.finLast fin]
      exact hbefore hack
    · exact hbefore hack

end Books

end Sponge
