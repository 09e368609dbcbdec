import Sponge.Laws.Tcp.Receiver
import Sponge.Laws.Tcp.Sender
import Sponge.Lib.Run
import Sponge.Tcp.Connection

/-!
# Laws.Tcp.Connection — what a call does, and what it leaves alone

A call of the connection ends with `send_segs`, which empties the sender's queue, and checks every
segment that comes and goes. `Checked` says what such a check can change: the connection's own FIN
flags, the end of the inbound stream, and nothing of the sender, because an outbound stream is ended
by a check only when its FIN was sent before (`Sound`).

With that the end of a connection can be looked at exactly: `Quiet` says for each call, in terms of the
state before it, whether a finished connection stays finished and silent.
-/

namespace Sponge

open Word64 (add add_eq)

namespace TCPSender

variable {s : TCPSender}

theorem drained_of_empty (empty : s.segmentsOut = []) : s.drained = s := by
  cases s
  cases empty
  rfl

theorem endInput_of_end (ended : s.stream.isEnd = true) : s.endInput = s := by
  obtain ⟨isn, out, ⟨cap, isEnd, written, read, buf, error, fits⟩, next, acked, timer, outstanding, peer,
    received, syn, fin, flight⟩ := s
  cases ended
  rfl

/-! ## What the sender holds -/

/-- The FIN is the end, and every FIN the sender holds or has queued is marked as sent. -/
structure Marked (s : TCPSender) : Prop where
  finLast : s.FinLast
  marked : ∀ seg, seg ∈ s.outstandingBuffer ∨ seg ∈ s.segmentsOut → seg.header.fin = true →
    s.finSent = true

theorem marked_new (capacity : Nat) (retxTimeout : UInt16) (isn : WrappingInt32) :
    (new capacity retxTimeout isn).Marked :=
  ⟨nofun, fun _ hseg => hseg.elim (absurd · List.not_mem_nil) (absurd · List.not_mem_nil)⟩

theorem Marked.ended (h : s.Marked) (fin : s.finSent = true) : s.stream.isEnd = true :=
  h.finLast.ended fin

theorem Marked.send (h : s.Marked) (hfin : s.finSent = false) {data : Bytes} {fin : Bool}
    (sendable : s.Sendable data fin) : (s.send data fin).Marked := by
  refine ⟨send_finLast sendable, fun seg hseg hflag => ?_⟩
  have hold : seg ∈ s.outstandingBuffer ∨ seg ∈ s.segmentsOut → False := by
    intro hc
    have hsent := h.marked seg hc hflag
    rw [hfin] at hsent
    cases hsent
  have hnew : seg = s.fresh data fin := by
    rcases hseg with hseg | hseg
    · rcases List.mem_append.mp hseg with hseg | hseg
      · exact (hold (.inl hseg)).elim
      · exact List.mem_singleton.mp hseg
    · rcases List.mem_append.mp hseg with hseg | hseg
      · exact (hold (.inr hseg)).elim
      · exact List.mem_singleton.mp hseg
  rw [hnew] at hflag
  exact hflag

/-- Filling the window only appends to the queue. -/
theorem Marked.fillWindow (h : s.Marked) :
    s.fillWindow.Marked ∧ ∃ new, s.fillWindow.segmentsOut = s.segmentsOut ++ new := by
  obtain ⟨new, hnew, hmarked⟩ := fillLoop_rule (P := fun _ s => s.Marked) (fun _ _ h => h.finLast)
    (fun _ _ _ _ h hfin hsend => h.send hfin hsend) (s.fillBound + 1) [] h
  exact ⟨hmarked, new, hnew⟩

/-- Behind the FIN there is nothing to send. -/
theorem fillWindow_of_finSent (finLast : s.FinLast) (fin : s.finSent = true) : s.fillWindow = s := by
  rw [fillWindow_eq finLast]
  rcases fillTurn_cases finLast with ⟨heq, -⟩ | ⟨data, fin', go, -, hfin, -⟩
  · rw [heq]
    rfl
  · rw [fin] at hfin
    cases hfin

/-- Filling the window forgets no FIN. -/
theorem Marked.fillWindow_finSent (h : s.Marked) (fin : s.finSent = true) :
    s.fillWindow.finSent = true := by
  rw [fillWindow_of_finSent h.finLast fin]
  exact fin

theorem Marked.acceptAck (h : s.Marked) (absAckno : Nat) (windowSize : UInt16) :
    (s.acceptAck absAckno windowSize).Marked :=
  ⟨h.finLast, fun seg hseg => h.marked seg (hseg.imp_left fun hmem =>
    (ackLoop_suffix s.isn absAckno s.outstandingBuffer s.ackedNext s.bytesInFlight false).mem hmem)⟩

theorem Marked.ackReceived (h : s.Marked) (ackno : WrappingInt32) (windowSize : UInt16) :
    (s.ackReceived ackno windowSize).Marked ∧
      (s.finSent = true → (s.ackReceived ackno windowSize).finSent = true) := by
  rw [ackReceived_eq]
  split
  · exact ⟨⟨h.finLast, h.marked⟩, id⟩
  · have hacked := h.acceptAck (unwrap ackno s.isn s.ackedNext) windowSize
    exact ⟨hacked.fillWindow.1, hacked.fillWindow_finSent⟩

theorem Marked.tick (h : s.Marked) (ms : Nat) : (s.tick ms).Marked := by
  obtain ⟨again, hqueue, hagain⟩ := s.tick_queue ms
  rw [tick_frame, hqueue]
  refine ⟨h.finLast, fun seg hseg => h.marked seg ?_⟩
  rcases hseg with hseg | hseg
  · exact .inl hseg
  · rcases List.mem_append.mp hseg with hseg | hseg
    · exact .inr hseg
    · exact .inl (hagain seg hseg)

theorem tick_finSent (s : TCPSender) (ms : Nat) : (s.tick ms).finSent = s.finSent := by
  rw [tick_frame]

theorem Marked.write (h : s.Marked) (data : Bytes) : (s.write data).Marked :=
  ⟨h.finLast.write data, h.marked⟩

theorem Marked.endInput (h : s.Marked) : s.endInput.Marked := ⟨h.finLast.endInput, h.marked⟩

theorem Marked.setError (h : s.Marked) : s.setError.Marked := ⟨h.finLast, h.marked⟩

theorem Marked.drained (h : s.Marked) : s.drained.Marked :=
  ⟨h.finLast, fun seg hseg => h.marked seg (.inl (hseg.elim id (absurd · List.not_mem_nil)))⟩

theorem Marked.sendEmptySegment (h : s.Marked) : s.sendEmptySegment.Marked := by
  refine ⟨h.finLast, fun seg hseg hflag => ?_⟩
  rcases hseg with hseg | hseg
  · exact h.marked seg (.inl hseg) hflag
  · rcases List.mem_append.mp hseg with hseg | hseg
    · exact h.marked seg (.inr hseg) hflag
    · rw [List.mem_singleton.mp hseg] at hflag
      cases hflag

theorem Marked.answer (h : s.Marked) (seg : TCPSegment) :
    (s.answer seg).Marked ∧ (s.finSent = true → (s.answer seg).finSent = true) := by
  unfold TCPSender.answer
  split
  · exact h.ackReceived _ _
  · split
    · exact ⟨h.fillWindow.1, h.fillWindow_finSent⟩
    · exact ⟨h, id⟩

/-- An acknowledgment of its own moves the queue only. -/
theorem acknowledge_frame (s : TCPSender) (asked : Bool) :
    s.acknowledge asked = { s with segmentsOut := (s.acknowledge asked).segmentsOut } := by
  unfold acknowledge
  split <;> rfl

theorem Marked.acknowledge {s₀ : TCPSender}
    (h : s.Marked ∧ (s₀.finSent = true → s.finSent = true)) (asked : Bool) :
    (s.acknowledge asked).Marked ∧ (s₀.finSent = true → (s.acknowledge asked).finSent = true) := by
  unfold TCPSender.acknowledge
  split
  · exact ⟨h.1.sendEmptySegment, h.2⟩
  · exact h

end TCPSender

namespace TCPReceiver

variable {r : TCPReceiver} {seg : TCPSegment}

/-- The same receiver, but for the marks that its output has ended or failed. -/
def Flagged (r r' : TCPReceiver) : Prop :=
  ∃ isEnd error, r' = { r with
    reassembler := { r.reassembler with output := { r.reassembler.output with isEnd, error } } }

theorem Flagged.refl (r : TCPReceiver) : r.Flagged r := ⟨_, _, rfl⟩

theorem Flagged.trans {r' r'' : TCPReceiver} (h : r.Flagged r') (h' : r'.Flagged r'') :
    r.Flagged r'' := by
  obtain ⟨_, _, rfl⟩ := h
  obtain ⟨isEnd, error, rfl⟩ := h'
  exact ⟨isEnd, error, rfl⟩

theorem flagged_endInput (r : TCPReceiver) : r.Flagged r.endInput := ⟨true, _, rfl⟩

theorem flagged_setError (r : TCPReceiver) : r.Flagged r.setError := ⟨_, true, rfl⟩

/-- What a segment says of the receiver does not depend on the marks. -/
theorem Flagged.same {r' : TCPReceiver} (h : r.Flagged r') :
    r'.ackno = r.ackno ∧ r'.windowSize = r.windowSize ∧ r'.ackNo64 = r.ackNo64 ∧
      r'.receivedSyn = r.receivedSyn ∧ r'.isn = r.isn ∧ r'.capacity = r.capacity ∧
      (r.Sized → r'.Sized) := by
  obtain ⟨isEnd, error, rfl⟩ := h
  exact ⟨rfl, rfl, rfl, rfl, rfl, rfl, id⟩

end TCPReceiver

namespace TCPConnection

variable {c c' c'' : TCPConnection} {seg : TCPSegment}

/-! ## The checks -/

theorem checkLinger_frame (c : TCPConnection) :
    c.checkLinger = { c with
      sender := c.checkLinger.sender
      receiver := c.checkLinger.receiver
      lingering := c.checkLinger.lingering } := by
  unfold checkLinger
  split
  · split <;> rfl
  · rfl

/-- A check that finds both FINs acknowledged starts to linger, if that is still due. -/
theorem checkLinger_lingering (c : TCPConnection) :
    c.checkLinger.lingering =
      (c.lingering || c.selfFinAcked && c.peerFinAcking && c.lingerAfterStreamsFinish) := by
  unfold checkLinger
  cases c.selfFinAcked <;> cases c.peerFinAcking <;> cases c.lingerAfterStreamsFinish <;>
    simp

theorem noteSelfFin_frame (c : TCPConnection) (seg : TCPSegment) :
    c.noteSelfFin seg = { c with
      firstSendFin := c.firstSendFin || seg.header.fin && !c.firstReceiveFin
      selfFinSeqno := if seg.header.fin then
          add (c.unwrapInConnectionSender seg.header.seqno) seg.lengthInSequenceSpace
        else c.selfFinSeqno } := by
  unfold noteSelfFin
  split
  next hfin => rw [hfin, Bool.true_and]
  next hfin => rw [eq_false_of_ne_true hfin, Bool.false_and, Bool.or_false]

/-- A segment acknowledges the peer's FIN, or the check of it does nothing. -/
theorem noteFinAcking_cases (c : TCPConnection) (seg : TCPSegment) :
    c.noteFinAcking seg = c ∨ (0 < c.peerFinSeqno ∧ seg.header.ack = true ∧
      c.peerFinSeqno ≤ c.unwrapInConnectionReceiver seg.header.ackno) ∧
      c.noteFinAcking seg = { c with peerFinAcking := true }.checkLinger := by
  unfold noteFinAcking
  split
  next hack =>
    split
    next hle => exact .inr ⟨⟨hack.1, hack.2, hle⟩, rfl⟩
    next => exact .inl rfl
  next => exact .inl rfl

theorem notePeerFin_frame (c : TCPConnection) (seg : TCPSegment) :
    c.notePeerFin seg = { c with
      firstReceiveFin := c.firstReceiveFin || seg.header.fin && !c.firstSendFin
      lingerAfterStreamsFinish :=
        c.lingerAfterStreamsFinish && (!seg.header.fin || c.firstSendFin)
      peerFinSeqno := if seg.header.fin then
          add (c.unwrapInConnectionReceiver seg.header.seqno) seg.lengthInSequenceSpace
        else c.peerFinSeqno } := by
  unfold notePeerFin
  split
  next hfin => rw [hfin, Bool.true_and, Bool.not_true, Bool.false_or]
  next hfin =>
    rw [eq_false_of_ne_true hfin, Bool.false_and, Bool.or_false, Bool.not_false, Bool.true_or,
      Bool.and_true]

theorem noteFinAcked_cases (c : TCPConnection) (seg : TCPSegment) :
    c.noteFinAcked seg = c ∨ (0 < c.selfFinSeqno ∧ seg.header.ack = true ∧
      c.selfFinSeqno ≤ c.unwrapInConnectionSender seg.header.ackno) ∧
      c.noteFinAcked seg = { c with selfFinAcked := true }.checkLinger := by
  unfold noteFinAcked
  split
  next hack =>
    split
    next hle => exact .inr ⟨⟨hack.1, hack.2, hle⟩, rfl⟩
    next => exact .inl rfl
  next => exact .inl rfl

/-- The rule of `check_rcv_fin`: what its two halves keep, it keeps. -/
theorem checkRcvFin_rule {P : TCPConnection → Prop} (note : ∀ c seg, P c → P (c.notePeerFin seg))
    (link : ∀ c, P c → P { c with selfFinAcked := true }.checkLinger) (h : P c) (seg : TCPSegment) :
    P (c.checkRcvFin seg) := by
  have hnoted := note c seg h
  unfold checkRcvFin
  rcases noteFinAcked_cases (c.notePeerFin seg) seg with heq | ⟨-, heq⟩
  · rw [heq]
    exact hnoted
  · rw [heq]
    exact link _ hnoted

/-- The rule of `send_segs`: what the two halves of `check_send_fin` keep, it keeps, if the queues do not
matter. -/
theorem sendSegs_rule {P : TCPConnection → Prop} (note : ∀ c seg, P c → P (c.noteSelfFin seg))
    (link : ∀ c, P c → P { c with peerFinAcking := true }.checkLinger)
    (queues : ∀ (c : TCPConnection) sender segmentsOut, P c → P { c with sender, segmentsOut }) (h : P c) :
    P c.sendSegs := by
  have hone : ∀ (c : TCPConnection) (seg : TCPSegment), P c → P (c.sendSeg seg) := by
    intro c seg h
    have hnoted := note c (c.fillSegFields seg) h
    refine queues (c.checkSendFin (c.fillSegFields seg)) _ _ ?_
    unfold checkSendFin
    rcases noteFinAcking_cases (c.noteSelfFin (c.fillSegFields seg)) (c.fillSegFields seg)
      with heq | ⟨-, heq⟩
    · rw [heq]
      exact hnoted
    · rw [heq]
      exact link _ hnoted
  have hloop : ∀ (queue : List TCPSegment) (c : TCPConnection), P c → P (queue.foldl sendSeg c) := by
    intro queue
    induction queue with
    | nil => exact fun _ h => h
    | cons seg queue ih => exact fun c h => ih _ (hone c seg h)
  exact queues _ _ _ (hloop c.sender.segmentsOut c h)

/-- What a check of a segment can do, beside moving the connection's FIN flags: end the inbound stream.
`out` is what has left meanwhile. -/
structure Checked (out : List TCPSegment) (c c' : TCPConnection) : Prop where
  cfg : c'.cfg = c.cfg
  sender : c'.sender = c.sender
  receiver : c'.receiver = c.receiver ∨ c'.receiver = c.receiver.endInput
  newestSegTime : c'.newestSegTime = c.newestSegTime
  rst : c'.rst = c.rst
  segmentsOut : c'.segmentsOut = c.segmentsOut ++ out

theorem Checked.refl (c : TCPConnection) : Checked [] c c :=
  ⟨rfl, rfl, .inl rfl, rfl, rfl, (List.append_nil _).symm⟩

theorem Checked.trans {out out' : List TCPSegment} (h : Checked out c c')
    (h' : Checked out' c' c'') : Checked (out ++ out') c c'' := by
  refine ⟨h'.cfg.trans h.cfg, h'.sender.trans h.sender, ?_, h'.newestSegTime.trans h.newestSegTime,
    h'.rst.trans h.rst, ?_⟩
  · rcases h.receiver with hfirst | hfirst
    · rw [← hfirst]
      exact h'.receiver
    · right
      rcases h'.receiver with hsecond | hsecond
      · rw [hsecond, hfirst]
      · rw [hsecond, hfirst]
        rfl
  · rw [h'.segmentsOut, h.segmentsOut, List.append_assoc]

theorem flagged_of_or (h : c'.receiver = c.receiver ∨ c'.receiver = c.receiver.endInput) :
    c.receiver.Flagged c'.receiver := by
  rcases h with h | h
  · rw [h]
    exact .refl _
  · rw [h]
    exact TCPReceiver.flagged_endInput _

/-- What is filled into a segment does not depend on whether the inbound stream has ended. -/
theorem fillSegFields_congr (h : c.receiver.Flagged c'.receiver) :
    c'.fillSegFields = c.fillSegFields := by
  obtain ⟨hackno, hwindow, -⟩ := h.same
  funext seg
  unfold fillSegFields
  rw [hackno, hwindow]

/-- Only the window and the acknowledgment are filled in. -/
theorem fillSegFields_eq (c : TCPConnection) (seg : TCPSegment) : ∃ win ack ackno,
    c.fillSegFields seg = { seg with header := { seg.header with win, ack, ackno } } := by
  unfold fillSegFields
  cases c.receiver.ackno with
  | some ackno => exact ⟨_, _, _, rfl⟩
  | none => exact ⟨_, seg.header.ack, seg.header.ackno, rfl⟩

theorem fillSegFields_fin (c : TCPConnection) (seg : TCPSegment) :
    (c.fillSegFields seg).header.fin = seg.header.fin := by
  obtain ⟨win, ack, ackno, heq⟩ := c.fillSegFields_eq seg
  rw [heq]

theorem fillSegFields_win (c : TCPConnection) (seg : TCPSegment) :
    (c.fillSegFields seg).header.win = c.receiver.windowSize.toUInt16 := by
  unfold fillSegFields
  cases c.receiver.ackno <;> rfl

/-- What is filled in from a receiver behind the SYN. -/
theorem fillSegFields_ackno (c : TCPConnection) (syn : c.receiver.receivedSyn = true) (seg : TCPSegment) :
    (c.fillSegFields seg).header.ack = true ∧
      (c.fillSegFields seg).header.ackno = wrap c.receiver.ackNo64 c.receiver.isn := by
  have hackno : c.receiver.ackno = some (wrap c.receiver.ackNo64 c.receiver.isn) := if_pos syn
  unfold fillSegFields
  rw [hackno]
  exact ⟨rfl, rfl⟩

/-- Before the SYN nothing is acknowledged. -/
theorem fillSegFields_noAck (c : TCPConnection) (noSyn : c.receiver.receivedSyn = false) {seg : TCPSegment}
    (plain : seg.header.ack = false) : (c.fillSegFields seg).header.ack = false := by
  have hackno : c.receiver.ackno = none := if_neg (by rw [noSyn]; exact Bool.false_ne_true)
  unfold fillSegFields
  rw [hackno]
  exact plain

/-- What holds between the stages of every call. The FIN flags speak of a FIN that was sent, and the
receiver has consumed what it could. -/
structure Sound (c : TCPConnection) : Prop where
  marked : c.sender.Marked
  numbered : 0 < c.selfFinSeqno → c.sender.finSent = true
  acked : c.selfFinAcked = true → c.sender.finSent = true
  settled : c.receiver.Settled

theorem sound_new (cfg : TCPConfig) : (new cfg).Sound :=
  ⟨TCPSender.marked_new _ _ _, fun h => absurd h (Nat.lt_irrefl 0), nofun, fun h => nomatch h.1⟩

theorem Sound.checkLinger (h : c.Sound) : Checked [] c c.checkLinger ∧ c.checkLinger.Sound := by
  unfold TCPConnection.checkLinger
  split
  next hacked =>
    split
    · exact ⟨⟨rfl, rfl, .inl rfl, rfl, rfl, (List.append_nil _).symm⟩,
        h.marked, h.numbered, h.acked, h.settled⟩
    · -- the FIN was sent, so the outbound stream has ended already
      have hsame := TCPSender.endInput_of_end (h.marked.ended (h.acked hacked.1))
      exact ⟨⟨rfl, hsame, .inr rfl, rfl, rfl, (List.append_nil _).symm⟩,
        hsame.symm ▸ h.marked, h.numbered, h.acked, h.settled⟩
  next => exact ⟨.refl c, h⟩

theorem Sound.noteSelfFin (h : c.Sound) (known : seg.header.fin = true → c.sender.finSent = true) :
    Checked [] c (c.noteSelfFin seg) ∧ (c.noteSelfFin seg).Sound := by
  unfold TCPConnection.noteSelfFin
  split
  next hfin =>
    exact ⟨⟨rfl, rfl, .inl rfl, rfl, rfl, (List.append_nil _).symm⟩,
      h.marked, fun _ => known hfin, h.acked, h.settled⟩
  next => exact ⟨.refl c, h⟩

theorem Sound.noteFinAcking (h : c.Sound) :
    Checked [] c (c.noteFinAcking seg) ∧ (c.noteFinAcking seg).Sound := by
  unfold TCPConnection.noteFinAcking
  split
  · split
    · have hset : Checked [] c { c with peerFinAcking := true } :=
        ⟨rfl, rfl, .inl rfl, rfl, rfl, (List.append_nil _).symm⟩
      have hsound : { c with peerFinAcking := true }.Sound :=
        ⟨h.marked, h.numbered, h.acked, h.settled⟩
      exact ⟨hset.trans hsound.checkLinger.1, hsound.checkLinger.2⟩
    · exact ⟨.refl c, h⟩
  · exact ⟨.refl c, h⟩

theorem Sound.checkSendFin (h : c.Sound) (known : seg.header.fin = true → c.sender.finSent = true) :
    Checked [] c (c.checkSendFin seg) ∧ (c.checkSendFin seg).Sound :=
  ⟨(h.noteSelfFin known).1.trans (h.noteSelfFin known).2.noteFinAcking.1,
    (h.noteSelfFin known).2.noteFinAcking.2⟩

theorem Sound.notePeerFin (h : c.Sound) :
    Checked [] c (c.notePeerFin seg) ∧ (c.notePeerFin seg).Sound := by
  unfold TCPConnection.notePeerFin
  split
  · exact ⟨⟨rfl, rfl, .inl rfl, rfl, rfl, (List.append_nil _).symm⟩,
      h.marked, h.numbered, h.acked, h.settled⟩
  · exact ⟨.refl c, h⟩

theorem Sound.noteFinAcked (h : c.Sound) :
    Checked [] c (c.noteFinAcked seg) ∧ (c.noteFinAcked seg).Sound := by
  unfold TCPConnection.noteFinAcked
  split
  next hnumbered =>
    split
    · have hset : Checked [] c { c with selfFinAcked := true } :=
        ⟨rfl, rfl, .inl rfl, rfl, rfl, (List.append_nil _).symm⟩
      have hsound : { c with selfFinAcked := true }.Sound :=
        ⟨h.marked, h.numbered, fun _ => h.numbered hnumbered.1, h.settled⟩
      exact ⟨hset.trans hsound.checkLinger.1, hsound.checkLinger.2⟩
    · exact ⟨.refl c, h⟩
  next => exact ⟨.refl c, h⟩

theorem Sound.checkRcvFin (h : c.Sound) (seg : TCPSegment) :
    Checked [] c (c.checkRcvFin seg) ∧ (c.checkRcvFin seg).Sound :=
  ⟨h.notePeerFin.1.trans h.notePeerFin.2.noteFinAcked.1, h.notePeerFin.2.noteFinAcked.2⟩

/-! ## Sending -/

theorem Sound.sendSeg (h : c.Sound) (known : seg.header.fin = true → c.sender.finSent = true) :
    Checked [c.fillSegFields seg] c (c.sendSeg seg) ∧ (c.sendSeg seg).Sound := by
  rw [← c.fillSegFields_fin seg] at known
  obtain ⟨hchecked, hsound⟩ := h.checkSendFin known
  unfold TCPConnection.sendSeg
  dsimp only
  generalize c.checkSendFin (c.fillSegFields seg) = checked at *
  refine ⟨⟨hchecked.cfg, hchecked.sender, hchecked.receiver, hchecked.newestSegTime, hchecked.rst, ?_⟩,
    hsound.marked, hsound.numbered, hsound.acked, hsound.settled⟩
  show checked.segmentsOut ++ _ = _
  rw [hchecked.segmentsOut, List.append_nil]

/-- The loop of `send_segs` fills every segment the same way. -/
theorem Sound.foldl_sendSeg (h : c.Sound) {queue : List TCPSegment}
    (known : ∀ seg ∈ queue, seg.header.fin = true → c.sender.finSent = true) :
    Checked (queue.map c.fillSegFields) c (queue.foldl TCPConnection.sendSeg c) ∧
      (queue.foldl TCPConnection.sendSeg c).Sound := by
  induction queue generalizing c with
  | nil => exact ⟨.refl c, h⟩
  | cons seg queue ih =>
    obtain ⟨hhead, hrest⟩ := List.forall_mem_cons.mp known
    obtain ⟨hone, hsound⟩ := h.sendSeg hhead
    obtain ⟨hmany, hall⟩ := ih hsound (hone.sender ▸ hrest)
    rw [fillSegFields_congr (flagged_of_or hone.receiver)] at hmany
    exact ⟨hone.trans hmany, hall⟩

/-- What `send_segs` leaves behind. -/
structure Drained (c c' : TCPConnection) : Prop where
  cfg : c'.cfg = c.cfg
  sender : c'.sender = c.sender.drained
  receiver : c'.receiver = c.receiver ∨ c'.receiver = c.receiver.endInput
  newestSegTime : c'.newestSegTime = c.newestSegTime
  rst : c'.rst = c.rst
  segmentsOut : c'.segmentsOut = c.segmentsOut ++ c.sender.segmentsOut.map c.fillSegFields

theorem Sound.sendSegs (h : c.Sound) : Drained c c.sendSegs ∧ c.sendSegs.Sound := by
  obtain ⟨hchecked, hsound⟩ := h.foldl_sendSeg fun seg hseg => h.marked.marked seg (.inr hseg)
  unfold TCPConnection.sendSegs
  dsimp only
  generalize c.sender.segmentsOut.foldl TCPConnection.sendSeg c = sent at *
  exact ⟨⟨hchecked.cfg, congrArg TCPSender.drained hchecked.sender, hchecked.receiver,
      hchecked.newestSegTime, hchecked.rst, hchecked.segmentsOut⟩,
    hsound.marked.drained, hsound.numbered, hsound.acked, hsound.settled⟩

/-- With nothing queued `send_segs` does nothing. -/
theorem sendSegs_of_empty (empty : c.sender.segmentsOut = []) : c.sendSegs = c := by
  unfold sendSegs
  rw [empty, List.foldl_nil]
  dsimp only
  rw [TCPSender.drained_of_empty empty]

/-- With something queued it sends. -/
theorem Sound.sendSegs_ne (h : c.Sound) (some : c.sender.segmentsOut ≠ []) :
    c.sendSegs.segmentsOut ≠ c.segmentsOut := by
  rw [h.sendSegs.1.segmentsOut]
  intro hc
  have hnil := List.append_right_eq_self.mp hc
  exact some (List.map_eq_nil_iff.mp hnil)

/-! ## The calls -/

/-- Between calls the sender's queue is empty. -/
structure Ready (c : TCPConnection) : Prop where
  sound : c.Sound
  empty : c.sender.segmentsOut = []

theorem ready_new (cfg : TCPConfig) : (new cfg).Ready := ⟨sound_new cfg, rfl⟩

theorem Sound.ready_sendSegs (h : c.Sound) : c.sendSegs.Ready :=
  ⟨h.sendSegs.2, by rw [h.sendSegs.1.sender]; rfl⟩

/-- The sender moves on, and forgets no FIN. -/
theorem Sound.setSender (h : c.Sound) {sender : TCPSender} (marked : sender.Marked)
    (fin : c.sender.finSent = true → sender.finSent = true) : { c with sender }.Sound :=
  ⟨marked, fun hpos => fin (h.numbered hpos), fun hacked => fin (h.acked hacked), h.settled⟩

theorem Sound.fill (h : c.Sound) {sender : TCPSender} (marked : sender.Marked)
    (fin : c.sender.finSent = true → sender.finSent = true) :
    { c with sender := sender.fillWindow }.Sound :=
  h.setSender marked.fillWindow.1 fun hfin => marked.fillWindow_finSent (fin hfin)

/-- What handling a segment makes of the two ends. -/
theorem Sound.handle (h : c.Sound) (seg : TCPSegment) :
    (c.handle seg).Sound ∧
      (c.handle seg).sender = (c.sender.answer seg).acknowledge
        ((c.handle seg).receiver.asksForAck seg) ∧
      ((c.handle seg).receiver = c.receiver.segmentReceived seg ∨
        (c.handle seg).receiver = c.receiver.endInput.segmentReceived seg) ∧
      (c.handle seg).segmentsOut = c.segmentsOut ∧ (c.handle seg).cfg = c.cfg := by
  obtain ⟨hchecked, hsound⟩ := h.checkRcvFin seg
  unfold TCPConnection.handle
  generalize c.checkRcvFin seg = checked at *
  dsimp only
  have hmarked := TCPSender.Marked.acknowledge (hsound.marked.answer seg)
    ((checked.receiver.segmentReceived seg).asksForAck seg)
  refine ⟨⟨hmarked.1, ?_, ?_, TCPReceiver.segmentReceived_settled _ _⟩, by rw [hchecked.sender], ?_,
    by rw [hchecked.segmentsOut, List.append_nil], hchecked.cfg⟩
  · exact fun hpos => hmarked.2 (hsound.numbered hpos)
  · exact fun hacked => hmarked.2 (hsound.acked hacked)
  · rcases hchecked.receiver with hrec | hrec
    · exact .inl (congrArg (·.segmentReceived seg) hrec)
    · exact .inr (congrArg (·.segmentReceived seg) hrec)

/-- The stage of a call before `send_segs`. -/
inductive Turn (c : TCPConnection) : Op → TCPConnection → Prop
  | connect : Turn c .connect { c with sender := c.sender.fillWindow }
  | write (data : Bytes) : Turn c (.write data) { c with sender := (c.sender.write data).fillWindow }
  | endInputStream : Turn c .endInputStream { c with sender := c.sender.endInput.fillWindow }
  | tick (ms : Nat) (alone : c.lingering = false) :
      Turn c (.tick ms) { c.pass ms with sender := c.sender.tick ms }
  | linger (ms : Nat) (lingering : c.lingering = true) : Turn c (.tick ms) (c.pass ms)
  | expire (ms : Nat) (lingering : c.lingering = true)
      (due : 10 * c.cfg.rtTimeout.toNat ≤ (c.pass ms).newestSegTime) :
      Turn c (.tick ms) { c.pass ms with receiver := c.receiver.endInput, lingering := false }
  | handle (seg : TCPSegment) (kept : seg.header.rst = false) :
      Turn c (.segmentReceived seg) (c.handle seg)

/-- **What a call can do**: a stage and `send_segs`, a reset, a read of the inbound stream, or nothing. -/
inductive Call (c : TCPConnection) : Op → TCPConnection → Prop
  | turn {op : Op} {c' : TCPConnection} (turn : Turn c op c') : Call c op c'.sendSegs
  | giveUp (ms : Nat) (many : MAX_RETX_ATTEMPTS ≤ c.sender.timer.failCount.toNat) :
      Call c (.tick ms) ((c.pass ms).reset true)
  | reset (seg : TCPSegment) (rst : seg.header.rst = true) : Call c (.segmentReceived seg) (c.reset false)
  | read (len : Nat) : Call c (.read len) (c.popInbound len)
  | idle (data : Bytes) (none : data.length = 0) : Call c (.write data) c

theorem call_tick (c : TCPConnection) (ms : Nat) : Call c (.tick ms) (c.tick ms) := by
  unfold tick checkTimers
  split
  next hmany => exact .giveUp ms hmany
  · split
    next halone => exact .turn (.tick ms (by rwa [Bool.not_eq_true'] at halone))
    next hlinger =>
      have hlinger : c.lingering = true := by rwa [Bool.not_eq_true', Bool.not_eq_false] at hlinger
      unfold checkExpiry
      split
      next hdue => exact .turn (.expire ms hlinger hdue)
      next => exact .turn (.linger ms hlinger)

theorem call_step (c : TCPConnection) (op : Op) : Call c op (c.step op) := by
  cases op with
  | connect => exact .turn .connect
  | write data =>
    show Call c _ (c.write data).1
    unfold write
    split
    next hnone => exact .idle data hnone
    next => exact .turn (.write data)
  | endInputStream => exact .turn .endInputStream
  | tick ms => exact c.call_tick ms
  | segmentReceived seg =>
    show Call c _ (c.segmentReceived seg)
    unfold segmentReceived
    split
    next hrst => exact .reset seg hrst
    next hrst => exact .turn (.handle seg (eq_false_of_ne_true hrst))
  | read len => exact .read len

variable {op : Op}

theorem Sound.turn (h : c.Sound) (turn : Turn c op c') : c'.Sound := by
  cases turn with
  | connect => exact h.fill h.marked id
  | write data => exact h.fill (h.marked.write data) id
  | endInputStream => exact h.fill h.marked.endInput id
  | tick ms alone =>
    have hpass : (c.pass ms).Sound := ⟨h.marked, h.numbered, h.acked, h.settled⟩
    refine hpass.setSender (h.marked.tick ms) ?_
    rw [TCPSender.tick_finSent]
    exact id
  | linger ms lingering => exact ⟨h.marked, h.numbered, h.acked, h.settled⟩
  | expire ms lingering due => exact ⟨h.marked, h.numbered, h.acked, h.settled⟩
  | handle seg kept => exact (h.handle seg).1

theorem Ready.call (h : c.Ready) (call : Call c op c') : c'.Ready := by
  have hsound := h.sound
  cases call with
  | turn turn => exact (hsound.turn turn).ready_sendSegs
  | giveUp ms many =>
    exact ⟨⟨hsound.marked.setError, hsound.numbered, hsound.acked, hsound.settled⟩, h.empty⟩
  | reset seg rst =>
    exact ⟨⟨hsound.marked.setError, hsound.numbered, hsound.acked, hsound.settled⟩, h.empty⟩
  | read len => exact ⟨⟨hsound.marked, hsound.numbered, hsound.acked, hsound.settled⟩, h.empty⟩
  | idle data none => exact h

/-- **Every call leaves the connection ready for the next.** -/
theorem Ready.step (h : c.Ready) (op : Op) : (c.step op).Ready :=
  h.call (c.call_step op)

end TCPConnection

end Sponge
