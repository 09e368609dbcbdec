import Sponge.Laws.Tcp.Ledger

/-!
# Laws.Tcp.Closing — what a connection that closed by itself has achieved

The connection decides from flags of its own that it is over: its FIN is acknowledged, and it has sent an
acknowledgment of the peer's FIN. It computes both from the segments, before the sender and the receiver
look at them, and it validates nothing. So the flags mean what they say only as long as no segment
acknowledges more than was sent while something is in flight, and every FIN can be placed by the receiver
(`Regular`). In every run of that kind a connection that closed without a reset has sent its FIN, has
nothing in flight, and its receiver has everything up to the peer's FIN.
-/

namespace Sponge

open Word64 (add add_eq)

/-! ## The receiver's side -/

namespace TCPReceiver

/-- The FIN is in, and acknowledged with everything before it. -/
structure Assembled (r : TCPReceiver) : Prop where
  syn : r.receivedSyn = true
  fin : r.receivedFin = true
  acked : r.lastNo ≤ r.ackNo64

/-- Before the SYN the receiver is untouched. Behind it, the acknowledgment number counts the bytes
written and the SYN, and beyond that only a FIN whose number it has reached. -/
structure Counted (r : TCPReceiver) : Prop where
  sized : r.Sized
  inRange : r.ackNo64 < 2 ^ 64
  waiting : r.receivedSyn = false → r.state = .listen ∧ r.receivedFin = false ∧ r.ackNo64 = 0 ∧
    r.reassembler.output.totalBytesWritten = 0
  counted : r.receivedSyn = true → r.ackNo64 ≤ r.reassembler.output.totalBytesWritten + 1 ∨
    r.receivedFin = true ∧ r.lastNo ≤ r.ackNo64 ∧
      r.ackNo64 ≤ r.reassembler.output.totalBytesWritten + 2

/-- A FIN the receiver can place: the SYN is in or comes with it, it starts less than `2 ^ 31` away from the
window, its length is one a segment can have, and it is not beyond a FIN that is acknowledged already. -/
def Placed (r : TCPReceiver) (seg : TCPSegment) : Prop :=
  let begun := r.acceptSyn seg
  let place := unwrap seg.header.seqno begun.isn begun.ackNo64
  begun.receivedSyn = true ∧ place < begun.ackNo64 + 2 ^ 31 ∧ begun.rightEdge < place + 2 ^ 31 ∧
    seg.lengthInSequenceSpace < 2 ^ 32 ∧
    (begun.receivedFin = true → begun.lastNo ≤ begun.ackNo64 →
      place + seg.lengthInSequenceSpace ≤ begun.ackNo64)

instance (r : TCPReceiver) (seg : TCPSegment) : Decidable (r.Placed seg) :=
  inferInstanceAs (Decidable (_ ∧ _ ∧ _ ∧ _ ∧ (_ → _ → _)))

variable {r : TCPReceiver} {seg : TCPSegment}

theorem counted_new (capacity : Nat) : (new capacity).Counted :=
  ⟨rfl, by show 0 < 2 ^ 64; omega, fun _ => ⟨rfl, rfl, rfl, rfl⟩, nofun⟩

theorem Counted.flagged {r' : TCPReceiver} (h : r.Counted) (flagged : r.Flagged r') : r'.Counted := by
  obtain ⟨isEnd, error, rfl⟩ := flagged
  exact ⟨h.sized, h.inRange, h.waiting, h.counted⟩

theorem Assembled.flagged {r' : TCPReceiver} (h : r.Assembled) (flagged : r.Flagged r') :
    r'.Assembled := by
  obtain ⟨isEnd, error, rfl⟩ := flagged
  exact ⟨h.syn, h.fin, h.acked⟩

theorem acceptSyn_flagged {r' : TCPReceiver} (flagged : r.Flagged r') (seg : TCPSegment) :
    (r.acceptSyn seg).Flagged (r'.acceptSyn seg) := by
  obtain ⟨isEnd, error, rfl⟩ := flagged
  refine ⟨isEnd, error, ?_⟩
  unfold acceptSyn
  dsimp only
  split <;> rfl

theorem Placed.flagged {r' : TCPReceiver} (h : r.Placed seg) (flagged : r.Flagged r') :
    r'.Placed seg := by
  obtain ⟨isEnd, error, heq⟩ := acceptSyn_flagged flagged seg
  unfold Placed at h ⊢
  rw [heq]
  exact h

theorem Counted.popOutput (h : r.Counted) (len : Nat) : (r.popOutput len).Counted :=
  ⟨h.sized, h.inRange, h.waiting, h.counted⟩

theorem Assembled.complete (h : r.Assembled) (counted : r.Counted) :
    r.lastNo ≤ r.reassembler.output.totalBytesWritten + 2 := by
  have hacked := h.acked
  rcases counted.counted h.syn with hle | ⟨-, -, hle⟩ <;> omega

/-! ### A segment behind the SYN -/

/-- Behind the SYN a FIN is placed from the acknowledgment number as it is. -/
theorem Placed.behind (h : r.Placed seg) (syn : r.receivedSyn = true) :
    unwrap seg.header.seqno r.isn r.ackNo64 < r.ackNo64 + 2 ^ 31 ∧
      r.rightEdge < unwrap seg.header.seqno r.isn r.ackNo64 + 2 ^ 31 ∧
      seg.lengthInSequenceSpace < 2 ^ 32 ∧
      (r.receivedFin = true → r.lastNo ≤ r.ackNo64 →
        unwrap seg.header.seqno r.isn r.ackNo64 + seg.lengthInSequenceSpace ≤ r.ackNo64) := by
  unfold Placed at h
  rw [acceptSyn_of_syn seg syn] at h
  exact h.2

/-- The fields a segment behind the SYN leaves, in terms of its payload stage. -/
theorem segmentReceived_fields (syn : r.receivedSyn = true) (seg : TCPSegment) :
    let paid := r.acceptPayload seg
    (r.segmentReceived seg).receivedSyn = true ∧
      (r.segmentReceived seg).receivedFin = (r.receivedFin || seg.header.fin) ∧
      (r.segmentReceived seg).reassembler.output.totalBytesWritten =
        paid.reassembler.output.totalBytesWritten ∧
      (r.segmentReceived seg).lastNo = (if seg.header.fin then
        add (unwrap seg.header.seqno r.isn paid.ackNo64) seg.lengthInSequenceSpace else r.lastNo) ∧
      (r.segmentReceived seg).ackNo64 =
        if (r.segmentReceived seg).receivedFin ∧ add paid.ackNo64 1 = (r.segmentReceived seg).lastNo then
          (r.segmentReceived seg).lastNo
        else paid.ackNo64 := by
  intro paid
  have hframe : paid.receivedSyn = r.receivedSyn ∧ paid.receivedFin = r.receivedFin ∧
      paid.lastNo = r.lastNo ∧ paid.isn = r.isn := by
    rw [show paid = r.acceptPayload seg from rfl, acceptPayload_frame]
    exact ⟨rfl, rfl, rfl, rfl⟩
  unfold segmentReceived
  rw [acceptSyn_of_syn seg syn, endStream_frame]
  dsimp only
  rw [show r.acceptPayload seg = paid from rfl]
  obtain ⟨hsyn, hfin, hlast, hisn⟩ := hframe
  clear_value paid
  have hnote : (paid.noteFin seg).ackNo64 = paid.ackNo64 ∧
      (paid.noteFin seg).receivedSyn = paid.receivedSyn ∧
      (paid.noteFin seg).lastNo = if seg.header.fin then
        add (unwrap seg.header.seqno r.isn paid.ackNo64) seg.lengthInSequenceSpace else r.lastNo := by
    unfold noteFin
    rw [← hisn, ← hlast]
    split <;> exact ⟨rfl, rfl, rfl⟩
  rw [← hnote.2.2, ← hnote.1, ← noteFin_reassembler paid seg, ← hfin, ← noteFin_receivedFin]
  have hsyn' : (paid.noteFin seg).receivedSyn = true := hnote.2.1.trans (hsyn.trans syn)
  generalize paid.noteFin seg = noted at *
  rw [consumeFin_frame]
  refine ⟨hsyn', rfl, rfl, rfl, ?_⟩
  unfold consumeFin
  split <;> rfl

/-- **What a segment does to a receiver behind the SYN.** Its FIN is placed where the connection places it,
and everything up to the last FIN stays assembled. -/
theorem Counted.received (h : r.Counted) (syn : r.receivedSyn = true) (few : r.rightEdge ≤ 2 ^ 63)
    (placed : seg.header.fin = true → r.Placed seg) :
    (r.segmentReceived seg).Counted ∧
      (seg.header.fin = true → (r.segmentReceived seg).lastNo =
        unwrap seg.header.seqno r.isn r.ackNo64 + seg.lengthInSequenceSpace) ∧
      (r.Assembled → (r.segmentReceived seg).Assembled) := by
  obtain ⟨n, hack, hwritten, hwindow⟩ := acceptPayload_grows h.sized (by unfold rightEdge at few; omega) seg
  obtain ⟨hsyn, hfin, hout, hlast, hnumber⟩ := segmentReceived_fields syn seg
  have hsized := h.sized.segmentReceived seg
  rw [hack] at hlast hnumber
  rw [hwritten] at hout
  rw [add_eq (by unfold rightEdge at few; omega)] at hnumber
  generalize r.segmentReceived seg = r' at *
  have hplace : seg.header.fin = true → r'.lastNo =
      unwrap seg.header.seqno r.isn r.ackNo64 + seg.lengthInSequenceSpace := by
    intro hflag
    obtain ⟨habove, hbelow, hlen, -⟩ := (placed hflag).behind syn
    unfold rightEdge at few hbelow
    rw [if_pos hflag] at hlast
    generalize hp : unwrap seg.header.seqno r.isn r.ackNo64 = place at *
    have hseqno : seg.header.seqno = wrap place r.isn := hp ▸ (wrap_unwrap _ _ _).symm
    rw [hlast, hseqno, unwrap_wrap r.isn (by omega) (by omega) (by omega), add_eq (by omega)]
  -- what was acknowledged with a FIN stays so: a new FIN is not beyond it
  have hstays : r.receivedFin = true → r.lastNo ≤ r.ackNo64 → r'.lastNo ≤ r.ackNo64 := by
    intro hbefore hle
    cases hflag : seg.header.fin with
    | true =>
      rw [hplace hflag]
      exact ((placed hflag).behind syn).2.2.2 hbefore hle
    | false =>
      rw [hlast, hflag, if_neg Bool.false_ne_true]
      exact hle
  have hfinal : r'.ackNo64 = if r'.receivedFin ∧ r.ackNo64 + n + 1 = r'.lastNo then r'.lastNo
      else r.ackNo64 + n := hnumber
  refine ⟨⟨hsized, ?_, fun hno => absurd (hsyn ▸ hno) Bool.noConfusion, fun _ => ?_⟩, hplace,
    fun hall => ?_⟩
  · unfold rightEdge at few
    rw [hfinal]
    split <;> omega
  · rw [hfinal, hout]
    rcases h.counted syn with hle | ⟨hbefore, hle, hmost⟩
    · split
      next hc => exact .inr ⟨hc.1, Nat.le_refl _, by omega⟩
      next => exact .inl (by omega)
    · have hmore := hstays hbefore hle
      rw [if_neg (by omega)]
      exact .inr ⟨by rw [hfin, hbefore, Bool.true_or], by omega, by omega⟩
  · have hmore := hstays hall.fin hall.acked
    refine ⟨hsyn, by rw [hfin, hall.fin, Bool.true_or], ?_⟩
    rw [hfinal, if_neg (by omega)]
    omega

/-! ### Any segment -/

/-- The number behind a FIN as the connection computes it, before the receiver sees the segment. -/
def finStop (r : TCPReceiver) (seg : TCPSegment) : Nat :=
  add (unwrap seg.header.seqno r.isn r.ackNo64) seg.lengthInSequenceSpace

/-- What a segment does to a receiver, as far as the end of its stream is concerned. -/
structure Receives (seg : TCPSegment) (r r' : TCPReceiver) : Prop where
  counted : r'.Counted
  fin : seg.header.fin = true → r'.receivedFin = true ∧ r'.lastNo ≤ r.finStop seg
  noFin : seg.header.fin = false → r'.receivedFin = r.receivedFin ∧ r'.lastNo = r.lastNo
  assembled : r.Assembled → r'.Assembled

/-- Before the SYN a segment without one is ignored. -/
theorem Counted.early (h : r.Counted) (noSyn : r.receivedSyn = false) (syn : seg.header.syn = false)
    (fin : seg.header.fin = false) : r.segmentReceived seg = r := by
  obtain ⟨hlisten, hnoFin, -⟩ := h.waiting noSyn
  have htwo : r.acceptPayload seg = r := by
    rw [acceptPayload, hlisten, if_neg (by decide)]
  have hthree : r.noteFin seg = r := by
    rw [noteFin, fin, if_neg Bool.false_ne_true]
  rw [segmentReceived, acceptSyn_of_noSyn r syn, htwo, hthree, finish_of_noFin hnoFin]

/-- The SYN starts the count. -/
theorem Counted.acceptSyn (h : r.Counted) (noSyn : r.receivedSyn = false) (syn : seg.header.syn = true) :
    (r.acceptSyn seg).Counted ∧ (r.acceptSyn seg).receivedSyn = true ∧
      (r.acceptSyn seg).rightEdge = r.rightEdge + 1 ∧ (r.acceptSyn seg).receivedFin = false ∧
      unwrap seg.header.seqno (r.acceptSyn seg).isn (r.acceptSyn seg).ackNo64 = 0 := by
  obtain ⟨-, hnoFin, hzero, hnone⟩ := h.waiting noSyn
  have hone : add (unwrap seg.header.seqno seg.header.seqno 0) 1 = 1 := by
    rw [unwrap_self]
    rfl
  rw [TCPReceiver.acceptSyn, if_pos ⟨noSyn, syn⟩, hone]
  refine ⟨⟨h.sized, by show 1 < 2 ^ 64; omega, fun hc => absurd hc.symm Bool.false_ne_true,
    fun _ => .inl (Nat.le_add_left 1 _)⟩, rfl, ?_, hnoFin, ?_⟩
  · show 1 + r.windowSize = r.ackNo64 + r.windowSize + 1
    omega
  · have horigin : unwrap (wrap 0 seg.header.seqno) seg.header.seqno 1 = 0 :=
      unwrap_wrap seg.header.seqno (by omega) (by omega) (by omega)
    rwa [wrap_zero] at horigin

/-- **Every segment keeps the count**, if its FIN can be placed. -/
theorem Counted.receives (h : r.Counted) (few : r.rightEdge < 2 ^ 63)
    (placed : seg.header.fin = true → r.Placed seg) : Receives seg r (r.segmentReceived seg) := by
  have hfin := r.segmentReceived_receivedFin seg
  cases hsyn : r.receivedSyn with
  | true =>
    obtain ⟨hcounted, hstop, hall⟩ := h.received hsyn (Nat.le_of_lt few) placed
    refine ⟨hcounted, fun hflag => ⟨by rw [hfin, hflag, Bool.or_true], ?_⟩, fun hflag => ⟨?_, ?_⟩, hall⟩
    · obtain ⟨habove, -, hlen, -⟩ := (placed hflag).behind hsyn
      unfold rightEdge at few
      refine Nat.le_of_eq ?_
      rw [hstop hflag, finStop, add_eq (by omega)]
    · rw [hfin, hflag, Bool.or_false]
    · rw [(segmentReceived_fields hsyn seg).2.2.2.1, hflag, if_neg Bool.false_ne_true]
  | false =>
    have hnot : ∀ {r' : TCPReceiver}, r.Assembled → r'.Assembled := by
      intro r' hall
      rw [hall.syn] at hsyn
      cases hsyn
    cases hflag : seg.header.syn with
    | true =>
      obtain ⟨hbegun, hsyn', hedge, hnoFin, horigin⟩ := h.acceptSyn hsyn hflag
      have hidem : r.segmentReceived seg = (r.acceptSyn seg).segmentReceived seg := by
        rw [segmentReceived, segmentReceived, acceptSyn_of_syn seg hsyn']
      have hplaced : seg.header.fin = true → (r.acceptSyn seg).Placed seg := by
        intro hflag'
        have hplaced := placed hflag'
        unfold Placed at hplaced ⊢
        rwa [acceptSyn_of_syn seg hsyn']
      obtain ⟨hcounted, hstop, -⟩ := hbegun.received hsyn' (by omega) hplaced
      rw [hidem] at hfin ⊢
      refine ⟨hcounted, fun hflag' => ⟨by rw [hfin, hflag', Bool.or_true], ?_⟩,
        fun hflag' => ⟨?_, ?_⟩, hnot⟩
      · -- the connection counts from the raw number, which is not below the receiver's
        have hlen := (placed hflag').2.2.2.1
        have hraw := unwrap_origin_lt seg.header.seqno r.isn
        rw [hstop hflag', horigin, finStop, (h.waiting hsyn).2.2.1, add_eq (by omega)]
        exact Nat.add_le_add_right (Nat.zero_le _) _
      · rw [hfin, hflag', Bool.or_false]
      · rw [(segmentReceived_fields hsyn' seg).2.2.2.1, hflag', if_neg Bool.false_ne_true]
        unfold TCPReceiver.acceptSyn
        split <;> rfl
    | false =>
      have hnoFin : seg.header.fin = false := by
        by_contra hc
        have hplaced := (placed (eq_true_of_ne_false hc)).1
        rw [acceptSyn_of_noSyn r hflag, hsyn] at hplaced
        cases hplaced
      rw [h.early hsyn hflag hnoFin]
      exact ⟨h, fun hc => absurd (hnoFin ▸ hc) Bool.noConfusion, fun _ => ⟨rfl, rfl⟩, id⟩

end TCPReceiver

/-! ## The connection -/

namespace TCPConnection

variable {c c' : TCPConnection} {seg : TCPSegment} {op : Op} {T : Bytes} {isn : WrappingInt32}
  {log hist : List TCPSegment}

/-- The connection's two FIN flags mean what they say. -/
structure Closing (T : Bytes) (isn : WrappingInt32) (log hist : List TCPSegment) (c : TCPConnection) :
    Prop where
  ledger : Ledger T isn log hist c
  acked : c.selfFinAcked = true → c.sender.bytesInFlight = 0
  counted : c.receiver.Counted
  peerFin : 0 < c.peerFinSeqno → c.receiver.receivedFin = true ∧ c.receiver.lastNo ≤ c.peerFinSeqno
  acking : c.peerFinAcking = true → c.receiver.Assembled

/-- A segment is regular if it resets the connection, or: it does not acknowledge more than was sent, while
the own FIN is out and something is in flight; and the receiver can place its FIN. -/
def Regular (c : TCPConnection) : Op → Prop
  | .segmentReceived seg => seg.header.rst = false →
    (seg.header.ack = true → 0 < c.selfFinSeqno →
      c.unwrapInConnectionSender seg.header.ackno ≤ c.sender.nextSeqno ∨ c.bytesInFlight = 0) ∧
    (seg.header.fin = true → c.receiver.Placed seg)
  | _ => True

/-- Fewer than `2 ^ 63` sequence numbers are used each way. -/
def Few (c : TCPConnection) : Prop := c.sender.nextSeqno < 2 ^ 63 ∧ c.receiver.rightEdge < 2 ^ 63

instance (c : TCPConnection) : ∀ op, Decidable (Regular c op)
  | .segmentReceived _ => inferInstanceAs (Decidable (_ → _ ∧ _))
  | .connect | .write _ | .endInputStream | .tick _ | .read _ => inferInstanceAs (Decidable True)

instance (c : TCPConnection) : Decidable c.Few := inferInstanceAs (Decidable (_ ∧ _))

theorem closing_new (cfg : TCPConfig) : Closing [] cfg.isn [] [] (new cfg) :=
  ⟨ledger_new cfg, nofun, TCPReceiver.counted_new _, fun h => absurd h (Nat.lt_irrefl 0), nofun⟩

/-- The same flags, and a receiver that differs only in its marks. -/
theorem Closing.congr (h : Closing T isn log hist c) {T' : Bytes} {log' : List TCPSegment}
    (ledger : Ledger T' isn log' hist c') (bytesInFlight : c.selfFinAcked = true →
      c'.sender.bytesInFlight = c.sender.bytesInFlight)
    (receiver : c.receiver.Flagged c'.receiver) (selfFinAcked : c'.selfFinAcked = c.selfFinAcked)
    (peerFinSeqno : c'.peerFinSeqno = c.peerFinSeqno)
    (peerFinAcking : c'.peerFinAcking = c.peerFinAcking) : Closing T' isn log' hist c' := by
  refine ⟨ledger, ?_, h.counted.flagged receiver, ?_, ?_⟩
  · rw [selfFinAcked]
    exact fun hacked => (bytesInFlight hacked).trans (h.acked hacked)
  · rw [peerFinSeqno]
    obtain ⟨isEnd, error, heq⟩ := receiver
    rw [heq]
    exact h.peerFin
  · rw [peerFinAcking]
    exact fun hacking => (h.acking hacking).flagged receiver

/-- **Taking a regular segment**: an acknowledgment of the own FIN leaves nothing in flight, and the peer's
FIN is where the connection says. -/
theorem Closing.handle (h : Closing T isn log hist c) (ready : c.Ready) (few : c.Few)
    (kept : seg.header.rst = false) (regular : Regular c (.segmentReceived seg)) {T' : Bytes}
    {log' : List TCPSegment} (ledger : Ledger T' isn log' hist (c.handle seg)) :
    Closing T' isn log' hist (c.handle seg) := by
  obtain ⟨hackno, hfin⟩ := regular kept
  have hrange : (c.sender.behind hist).nextSeqno < 2 ^ 64 := by
    have hfew : (c.sender.behind hist).nextSeqno < 2 ^ 63 := few.1
    omega
  -- the receiver meets the segment with its marks moved at most
  obtain ⟨checked, asked, htakes, heq⟩ := ready.sound.handle_eq seg
  have hflagged := flagged_of_or htakes.checked.receiver
  rw [heq] at ledger ⊢
  generalize checked.receiver = r at *
  have hreceives : TCPReceiver.Receives seg r (r.segmentReceived seg) := by
    refine (h.counted.flagged hflagged).receives ?_ fun hflag => (hfin hflag).flagged hflagged
    obtain ⟨isEnd, error, rfl⟩ := hflagged
    exact few.2
  refine ⟨ledger, fun hacked => ?_, hreceives.counted, fun hpos => ?_, fun hacking => ?_⟩
  · have hall : c.sender.finSent = true ∧ (c.sender.bytesInFlight = 0 ∨ seg.header.ack = true ∧
        unwrap seg.header.ackno isn c.sender.nextSeqno = c.sender.nextSeqno) := by
      rcases htakes.selfFinAcked hacked with hbefore | ⟨hpos, hack, hle⟩
      · exact ⟨ready.sound.acked hbefore, .inl (h.acked hbefore)⟩
      · have hsent := ready.sound.numbered hpos
        have hself := h.ledger.selfFin_eq ready hsent
        have hisn : c.sender.isn = isn := h.ledger.books.accounts.isn_eq
        refine ⟨hsent, ?_⟩
        rcases hackno hack hpos with hnext | hnone
        · rw [hself] at hle
          have heq := Nat.le_antisymm hnext hle
          unfold unwrapInConnectionSender at heq
          exact .inr ⟨hack, hisn ▸ heq⟩
        · exact .inl hnone
    have hanswer := h.ledger.books.answer_all hrange hall.1 hall.2
    rw [TCPSender.answer_behind] at hanswer
    dsimp only
    rw [TCPSender.acknowledge_frame]
    exact hanswer
  · have hpeer : checked.peerFinSeqno = if seg.header.fin then r.finStop seg else c.peerFinSeqno := by
      obtain ⟨isEnd, error, rfl⟩ := hflagged
      exact htakes.peerFinSeqno
    dsimp only at hpos ⊢
    by_cases hflag : seg.header.fin = true
    · rw [hpeer, if_pos hflag]
      exact hreceives.fin hflag
    · rw [hpeer, if_neg hflag] at hpos ⊢
      obtain ⟨hbefore, hlast⟩ := hreceives.noFin (eq_false_of_ne_true hflag)
      rw [hbefore, hlast]
      obtain ⟨isEnd, error, rfl⟩ := hflagged
      exact h.peerFin hpos
  · exact hreceives.assembled
      ((h.acking (htakes.peerFinAcking.symm.trans hacking)).flagged hflagged)

theorem Closing.turn (h : Closing T isn log hist c) (ready : c.Ready) (few : c.Few)
    (regular : Regular c op) (turn : Turn c op c') : ∃ T' log', Closing T' isn log' hist c' ∧
      c'.sender.nextSeqno < 2 ^ 64 := by
  have hfew := few.1
  obtain ⟨T', new, hledger, hle⟩ := h.ledger.turn ready.sound (by omega) turn
  refine ⟨T', log ++ new, ?_, by omega⟩
  have hmarked := ready.sound.marked
  -- behind the FIN there is nothing to fill the window with
  have hfill : ∀ {s : TCPSender}, s.Marked → s.finSent = c.sender.finSent → c.selfFinAcked = true →
      s.fillWindow.bytesInFlight = s.bytesInFlight := by
    intro s marked same hacked
    rw [TCPSender.fillWindow_of_finSent marked.finLast (same.trans (ready.sound.acked hacked))]
  cases turn with
  | connect => exact h.congr hledger (hfill hmarked rfl) (.refl _) rfl rfl rfl
  | write data => exact h.congr hledger (hfill (hmarked.write data) rfl) (.refl _) rfl rfl rfl
  | endInputStream => exact h.congr hledger (hfill hmarked.endInput rfl) (.refl _) rfl rfl rfl
  | tick ms alone =>
    refine h.congr hledger (fun _ => ?_) (.refl _) rfl rfl rfl
    show (c.sender.tick ms).bytesInFlight = _
    rw [TCPSender.tick_frame]
  | linger ms lingering => exact h.congr hledger (fun _ => rfl) (.refl _) rfl rfl rfl
  | expire ms lingering due =>
    exact h.congr hledger (fun _ => rfl) (TCPReceiver.flagged_endInput _) rfl rfl rfl
  | handle seg kept => exact h.handle ready few kept regular hledger

/-- **Sending**: whoever acknowledges the peer's FIN has everything before it. -/
theorem Closing.sendSegs (h : Closing T isn log hist c) (sound : c.Sound)
    (inRange : c.sender.nextSeqno < 2 ^ 64) :
    Closing T isn log (hist ++ c.sender.segmentsOut) c.sendSegs := by
  have hledger := h.ledger.sendSegs sound inRange
  obtain ⟨sent, hsends, heq⟩ := sound.sendSegs_eq
  have hflagged := flagged_of_or hsends.checked.receiver
  rw [heq] at hledger ⊢
  refine ⟨hledger, ?_, h.counted.flagged hflagged, ?_, fun hacking => ?_⟩
  · exact fun hacked => h.acked (hsends.selfFinAcked.symm.trans hacked)
  · show 0 < sent.peerFinSeqno → sent.receiver.receivedFin = true ∧ sent.receiver.lastNo ≤ sent.peerFinSeqno
    rw [hsends.peerFinSeqno]
    obtain ⟨isEnd, error, hrec⟩ := hflagged
    rw [hrec]
    exact h.peerFin
  · refine TCPReceiver.Assembled.flagged ?_ hflagged
    rcases hsends.peerFinAcking hacking with hbefore | ⟨hpos, seg, -, -, hle⟩
    · exact h.acking hbefore
    · obtain ⟨hfin, hlast⟩ := h.peerFin hpos
      have hsyn : c.receiver.receivedSyn = true := by
        by_contra hc
        rw [(h.counted.waiting (eq_false_of_ne_true hc)).2.1] at hfin
        cases hfin
      rw [(c.fillSegFields_ackno hsyn seg).2, unwrapInConnectionReceiver,
        unwrap_wrap _ (by omega) (by omega) h.counted.inRange] at hle
      exact ⟨hsyn, hfin, Nat.le_trans hlast hle⟩

/-- **Every call keeps the flags honest**, if the segments are regular. -/
theorem Closing.call (h : Closing T isn log hist c) (ready : c.Ready) (few : c.Few)
    (regular : Regular c op) (call : Call c op c') : ∃ T' log' hist', Closing T' isn log' hist' c' := by
  cases call with
  | turn turn =>
    obtain ⟨T', log', hclosing, hrange⟩ := h.turn ready few regular turn
    exact ⟨T', log', _, hclosing.sendSegs (ready.sound.turn turn) hrange⟩
  | giveUp ms many =>
    exact ⟨T, log, hist, h.congr (h.ledger.setError rfl rfl) (fun _ => rfl)
      (TCPReceiver.flagged_setError _) rfl rfl rfl⟩
  | reset seg rst =>
    exact ⟨T, log, hist, h.congr (h.ledger.setError rfl rfl) (fun _ => rfl)
      (TCPReceiver.flagged_setError _) rfl rfl rfl⟩
  | read len =>
    exact ⟨T, log, hist, h.ledger.congr rfl rfl, h.acked, h.counted.popOutput len, h.peerFin,
      fun hacking => ⟨(h.acking hacking).syn, (h.acking hacking).fin, (h.acking hacking).acked⟩⟩
  | idle data none => exact ⟨T, log, hist, h⟩

variable {cfg : TCPConfig}

/-- **A clean close is fully acknowledged**, in every run whose segments are regular and that uses fewer
than `2 ^ 63` sequence numbers each way: a connection that is not active although it was not reset has
sent its FIN and has nothing in flight, and its receiver has acknowledged the peer's FIN and written every
byte before it, the SYN and the FIN taking one number each. -/
theorem clean_close
    (run : Runs.Reach step (fun c op => c.Few ∧ Regular c op) (new cfg) c)
    (inactive : c.active = false) (noRst : c.rst = false) :
    c.sender.finSent = true ∧ c.bytesInFlight = 0 ∧
      c.receiver.receivedFin = true ∧ c.receiver.lastNo ≤ c.receiver.ackNo64 ∧
      c.receiver.lastNo ≤ c.inboundStream.bytesWritten + 2 := by
  obtain ⟨ready, T, log, hist, hclosing⟩ :
      c.Ready ∧ ∃ T log hist, Closing T cfg.isn log hist c := by
    refine run.invariant (fun c => c.Ready ∧ ∃ T log hist, Closing T cfg.isn log hist c)
      ⟨ready_new cfg, _, _, _, closing_new cfg⟩ ?_
    rintro c op ⟨ready, T, log, hist, hclosing⟩ ⟨few, regular⟩
    exact ⟨ready.step op, hclosing.call ready few regular (c.call_step op)⟩
  unfold active at inactive
  rw [noRst, Bool.not_false, Bool.and_true, Bool.not_eq_false', Bool.and_eq_true, Bool.and_eq_true]
    at inactive
  obtain ⟨⟨hacked, hacking⟩, -⟩ := inactive
  have hall := hclosing.acking hacking
  exact ⟨ready.sound.acked hacked, hclosing.acked hacked, hall.fin, hall.acked,
    hall.complete hclosing.counted⟩

/-- A passive close with two bytes from the peer. -/
theorem clean_close_two :
    let syn : TCPSegment := { header := { seqno := ⟨7⟩, syn := true, win := 10 } }
    let ack : TCPSegment := { header := { seqno := ⟨8⟩, ack := true, ackno := ⟨1⟩, win := 10 } }
    let fin : TCPSegment :=
      { header := { seqno := ⟨8⟩, ack := true, ackno := ⟨1⟩, win := 10, fin := true },
        payload := Buffer.ofString [1, 2] }
    let last : TCPSegment := { header := { seqno := ⟨11⟩, ack := true, ackno := ⟨2⟩, win := 10 } }
    let c := [.segmentReceived syn, .segmentReceived ack, .segmentReceived fin, .endInputStream,
      .segmentReceived last].foldl step (new { recvCapacity := 8, sendCapacity := 8 })
    c.sender.finSent = true ∧ c.bytesInFlight = 0 ∧ c.inboundStream.bytesWritten = 2 := by
  intro syn ack fin last c
  have run : Runs.Reach step (fun c op => c.Few ∧ Regular c op)
      (new { recvCapacity := 8, sendCapacity := 8 }) c := Runs.reach_foldl .start (by decide +kernel)
  obtain ⟨hfin, hflight, -⟩ := clean_close run (by decide +kernel) (by decide +kernel)
  exact ⟨hfin, hflight, by decide +kernel⟩

/-- **An impossible acknowledgment closes the connection.** The peer has closed and the own FIN is out as
number 1. An acknowledgment of number 3 is beyond everything sent: the sender ignores it, but the
connection takes its FIN for acknowledged, with the FIN still in flight. -/
theorem impossible_ack_closes :
    let syn : TCPSegment := { header := { seqno := ⟨7⟩, syn := true, win := 10 } }
    let ack : TCPSegment := { header := { seqno := ⟨8⟩, ack := true, ackno := ⟨1⟩, win := 10 } }
    let fin : TCPSegment := { header := { seqno := ⟨8⟩, ack := true, ackno := ⟨1⟩, win := 10, fin := true } }
    let beyond : TCPSegment := { header := { seqno := ⟨9⟩, ack := true, ackno := ⟨3⟩, win := 10 } }
    let c := [.segmentReceived syn, .segmentReceived ack, .segmentReceived fin, .endInputStream,
      .segmentReceived beyond].foldl step (new {})
    Runs.Reach step (fun _ _ => True) (new {}) c ∧ c.active = false ∧ c.rst = false ∧
      c.sender.nextSeqno = 2 ∧ c.bytesInFlight = 1 := by
  intro syn ack fin beyond c
  exact ⟨Runs.reach_foldl .start (by decide), by decide +kernel, by decide +kernel, by decide +kernel,
    by decide +kernel⟩

end TCPConnection

end Sponge
