import Sponge.Laws.Tcp.Ledger

/-!
# Laws.Tcp.Linger — two connections over a lossy network, and when not to linger

A `Pair` is two connections. Whatever one of them has sent may be delivered to the other, any number of
times and in any order; nothing else is. Each end keeps two records beside the connection: the segments it
was handed, and whether it has lingered to the end.

The end whose peer closed first does not linger. It relies on this: its own FIN is acknowledged, the peer
had the FIN in its hands for that, and every segment with that FIN acknowledged the peer's own FIN. The
last point is the connection's to see to, and it does not: it sends its FIN whenever its stream has ended,
also while the peer's FIN waits for missing data and cannot be acknowledged yet. `Orderly` excludes that.
-/

namespace Sponge

open Word64 (add)

/-! ## The receiver -/

namespace TCPReceiver

variable {S : Bytes} {isn : WrappingInt32} {r r' : TCPReceiver}

/-- The FIN is in, and acknowledged. -/
def Caught (r : TCPReceiver) : Prop := r.receivedFin = true ∧ r.ackNo64 = r.lastNo

instance (r : TCPReceiver) : Decidable r.Caught := inferInstanceAs (Decidable (_ ∧ _))

theorem Started.flagged (h : Started S isn r) (flagged : r.Flagged r') : Started S isn r' := by
  obtain ⟨isEnd, error, rfl⟩ := flagged
  obtain ⟨hout, hassembled, hexpect, hstored⟩ := h.safe
  exact ⟨h.syn, h.isn_eq, h.receiving,
    ⟨⟨hout.written, hout.buffered, hout.within⟩, hassembled, hexpect, hstored⟩, h.acked, h.last⟩

theorem Fresh.flagged (h : Fresh S r) (flagged : r.Flagged r') : Fresh S r' := by
  obtain ⟨isEnd, error, rfl⟩ := flagged
  obtain ⟨hout, hassembled, hexpect, hstored⟩ := h.safe
  exact ⟨h.noSyn, h.noFin,
    ⟨⟨hout.written, hout.buffered, hout.within⟩, hassembled, hexpect, hstored⟩, h.nothing⟩

theorem Caught.flagged (h : r.Caught) (flagged : r.Flagged r') : r'.Caught := by
  obtain ⟨isEnd, error, rfl⟩ := flagged
  exact h

/-- A FIN that is acknowledged stays so. -/
theorem Caught.later (h : r.Caught) (started : Started S isn r) (later : Started S isn r')
    (fin : r'.receivedFin = true) (ahead : r.ackNo64 ≤ r'.ackNo64) : r'.Caught := by
  have hbefore := started.last h.1
  have hafter := later.last fin
  have hmost := later.ackNo64_le
  have hcaught := h.2
  exact ⟨fin, by omega⟩

end TCPReceiver

/-! ## A segment on the wire -/

/-- A segment as it was queued, with the window and the acknowledgment filled in. -/
def TCPSegment.Copies (queued seg : TCPSegment) : Prop := ∃ win ack ackno,
  seg = { queued with header := { queued.header with win, ack, ackno } }

theorem TCPSegment.Copies.carved {queued seg : TCPSegment} (h : queued.Copies seg) {S : Bytes}
    {isn : WrappingInt32} {i : Nat} (carved : Carved S isn i queued) : Carved S isn i seg := by
  obtain ⟨win, ack, ackno, rfl⟩ := h
  exact ⟨carved.excerpt, carved.within, carved.seqno, carved.synFirst, carved.finLast⟩

/-! ## One direction -/

namespace TCPConnection

variable {x y : TCPConnection} {T : Bytes} {isn : WrappingInt32} {log hist : List TCPSegment}

/-- Before the SYN of `x` arrives: `y` has acknowledged nothing, and `x` has sent nothing but the SYN. -/
structure Waiting (log : List TCPSegment) (x y : TCPConnection) : Prop where
  fresh : TCPReceiver.Fresh (sentBytes log) y.receiver
  small : x.sender.Reaches 1
  silent : ∀ seg ∈ y.segmentsOut, seg.header.ack = false

/-- What holds between a connection that sends and one that receives. -/
structure Lane (T : Bytes) (isn : WrappingInt32) (log hist : List TCPSegment) (x y : TCPConnection) :
    Prop where
  ledger : Ledger T isn log hist x
  phase : Waiting log x y ∨ TCPReceiver.Started (sentBytes log) isn y.receiver ∧ log ≠ []
  fin : y.receiver.receivedFin = true → ∃ seg ∈ log, seg.header.fin = true
  wire : ∀ seg ∈ x.segmentsOut, seg = rstSegment ∨ ∃ queued ∈ hist, queued.Copies seg
  acks : ∀ seg ∈ y.segmentsOut, seg.header.ack = true →
    ∃ n ≤ y.receiver.ackNo64, seg.header.ackno = wrap n isn

theorem lane_new (cfg cfg' : TCPConfig) : Lane [] cfg.isn [] [] (new cfg) (new cfg') where
  ledger := ledger_new cfg
  phase := .inl ⟨TCPReceiver.fresh_new _ _, ⟨Nat.le_refl 1, fun _ => Nat.le_refl 1⟩,
    fun _ hseg => absurd hseg List.not_mem_nil⟩
  fin := nofun
  wire := fun _ hseg => absurd hseg List.not_mem_nil
  acks := fun _ hseg => absurd hseg List.not_mem_nil

theorem Lane.accounts (h : Lane T isn log hist x y) : Accounts T isn log (x.sender.behind hist) :=
  h.ledger.books.accounts

theorem Lane.short (h : Lane T isn log hist x y) (few : x.sender.nextSeqno < 2 ^ 30) :
    (sentBytes log).length < 2 ^ 30 := by
  have hlen := length_sentBytes_le log
  have htotal : x.sender.nextSeqno = seqLen log := h.accounts.total
  omega

/-- Once a FIN is in, the SYN is. -/
theorem Lane.started (h : Lane T isn log hist x y) (fin : y.receiver.receivedFin = true) :
    TCPReceiver.Started (sentBytes log) isn y.receiver := by
  rcases h.phase with waiting | ⟨hstarted, -⟩
  · rw [waiting.fresh.noFin] at fin
    cases fin
  · exact hstarted

/-- Behind its FIN a sender has used two numbers more than it has sent bytes. -/
theorem Lane.finished (h : Lane T isn log hist x y) (fin : x.sender.finSent = true) :
    x.sender.nextSeqno = (sentBytes log).length + 2 := by
  have hcounts : x.sender.nextSeqno = (if x.sender.synSent then 1 else 0) +
      x.sender.stream.totalBytesRead + (if x.sender.finSent then 1 else 0) := h.accounts.counts
  have hsyn : x.sender.synSent = true := (h.accounts.finLast fin).1
  have hread : (sentBytes log).length = x.sender.stream.totalBytesRead := h.accounts.length_sentBytes
  rw [if_pos hsyn, if_pos fin] at hcounts
  omega

/-- What arrives was sent: it carries nothing, or it is carved from what was sent. -/
theorem Lane.arrives (h : Lane T isn log hist x y) {seg : TCPSegment} (sent : seg ∈ x.segmentsOut)
    (kept : seg.header.rst = false) :
    seg.lengthInSequenceSpace = 0 ∨ log ≠ [] ∧ (∃ i, Carved (sentBytes log) isn i seg) ∧
      (Waiting log x y → seg.header.syn = true) ∧
      (seg.header.fin = true → ∃ seg ∈ log, seg.header.fin = true) := by
  obtain ⟨queued, hqueued, hcopies⟩ : ∃ queued ∈ hist, queued.Copies seg := by
    refine (h.wire seg sent).resolve_left ?_
    rintro rfl
    cases kept
  rcases h.accounts.channel (List.mem_append_left _ hqueued) with hblank | ⟨hlog, ⟨i, hcarved⟩, hsyn⟩
  · obtain ⟨win, ack, ackno, rfl⟩ := hcopies
    exact .inl hblank
  · refine .inr ⟨List.ne_nil_of_mem hlog, ⟨i, hcopies.carved hcarved⟩, fun waiting => ?_, fun hfin => ?_⟩
    · obtain ⟨win, ack, ackno, rfl⟩ := hcopies
      exact hsyn ⟨waiting.small.below, waiting.small.room⟩
    · obtain ⟨win, ack, ackno, rfl⟩ := hcopies
      exact ⟨queued, hlog, hfin⟩

/-! ### The sending end moves -/

variable {x' y' : TCPConnection} {op : Op} {T' : Bytes} {new queue : List TCPSegment}

theorem Lane.send (h : Lane T isn log hist x y)
    (ledger : Ledger T' isn (log ++ new) (hist ++ queue) x') (wired : Wired queue x x')
    (small : Waiting log x y → x'.sender.Reaches 1) :
    Lane T' isn (log ++ new) (hist ++ queue) x' y := by
  have hsent : sentBytes (log ++ new) = sentBytes log ++ sentBytes new := sentBytes_append log new
  have hstill : y.receiver.receivedFin = true → sentBytes new = [] := fun hfin =>
    h.accounts.sentBytes_new ledger.books.accounts (h.fin hfin)
  refine ⟨ledger, ?_, fun hfin => ?_, fun seg hseg => ?_, h.acks⟩
  · rcases h.phase with waiting | ⟨hstarted, hbegun⟩
    · exact .inl ⟨hsent ▸ waiting.fresh.extend _, small waiting, waiting.silent⟩
    · exact .inr ⟨hsent ▸ hstarted.extend hstill, List.append_ne_nil_of_left_ne_nil hbegun new⟩
  · obtain ⟨seg, hseg, hflag⟩ := h.fin hfin
    exact ⟨seg, List.mem_append_left _ hseg, hflag⟩
  · rcases wired.cases hseg with hold | rfl | ⟨queued, hmem, rfl⟩
    · exact (h.wire seg hold).imp_right fun ⟨queued, hmem, hcopies⟩ =>
        ⟨queued, List.mem_append_left _ hmem, hcopies⟩
    · exact .inl rfl
    · exact .inr ⟨queued, List.mem_append_right _ hmem, x'.fillSegFields_eq queued⟩

/-- Without an acknowledgment the sender stays within its window. -/
theorem Sound.turn_reaches (h : x.Sound) {limit : Nat} (reaches : x.sender.Reaches limit)
    (turn : Turn x op x') (quiet : ∀ seg, op = .segmentReceived seg → seg.header.ack = false) :
    x'.sender.Reaches limit := by
  cases turn with
  | connect => exact reaches.fillWindow h.marked.finLast
  | write data =>
    have hwrite : (x.sender.write data).Reaches limit := ⟨reaches.below, reaches.room⟩
    exact hwrite.fillWindow (h.marked.write data).finLast
  | endInputStream =>
    have hend : x.sender.endInput.Reaches limit := ⟨reaches.below, reaches.room⟩
    exact hend.fillWindow h.marked.endInput.finLast
  | tick ms alone => exact reaches.tick ms
  | handle seg kept =>
    have hanswer : (x.sender.answer seg).Reaches limit := by
      unfold TCPSender.answer
      rw [quiet seg rfl, if_neg Bool.false_ne_true]
      split
      · exact reaches.fillWindow h.marked.finLast
      · exact reaches
    rw [(h.handle seg).2.1, TCPSender.acknowledge_frame]
    exact ⟨hanswer.below, hanswer.room⟩
  | _ => exact reaches

theorem Ready.reaches (h : x.Ready) {limit : Nat} (reaches : x.sender.Reaches limit)
    (call : Call x op x') (quiet : ∀ seg, op = .segmentReceived seg → seg.header.ack = false) :
    x'.sender.Reaches limit := by
  cases call with
  | turn turn =>
    have hreaches := h.sound.turn_reaches reaches turn quiet
    rw [((h.sound.turn turn).sendSegs).1.sender]
    exact ⟨hreaches.below, hreaches.room⟩
  | giveUp ms many => exact ⟨reaches.below, reaches.room⟩
  | reset seg rst => exact ⟨reaches.below, reaches.room⟩
  | _ => exact reaches

/-! ### The receiving end moves -/

/-- What an operation makes of a receiver that is handed only what was sent to it. -/
structure Lane.Moved (isn : WrappingInt32) (log : List TCPSegment) (x y : TCPConnection)
    (r : TCPReceiver) : Prop where
  phase : Waiting log x y ∧ TCPReceiver.Fresh (sentBytes log) r ∨
    TCPReceiver.Started (sentBytes log) isn r ∧ log ≠ []
  ahead : Waiting log x y ∨ y.receiver.ackNo64 ≤ r.ackNo64
  fin : r.receivedFin = true → ∃ seg ∈ log, seg.header.fin = true
  stays : y.receiver.receivedFin = true → r.receivedFin = true

theorem Lane.moved_refl (h : Lane T isn log hist x y) : Lane.Moved isn log x y y.receiver :=
  ⟨h.phase.imp_left fun w => ⟨w, w.fresh⟩, .inr (Nat.le_refl _), h.fin, id⟩

theorem Lane.Moved.flagged {r r' : TCPReceiver} (h : Lane.Moved isn log x y r)
    (flagged : r.Flagged r') : Lane.Moved isn log x y r' := by
  refine ⟨h.phase.imp (fun ⟨w, hf⟩ => ⟨w, hf.flagged flagged⟩)
    (fun ⟨hs, hb⟩ => ⟨hs.flagged flagged, hb⟩), ?_, ?_, ?_⟩
  all_goals obtain ⟨isEnd, error, rfl⟩ := flagged
  · exact h.ahead
  · exact h.fin
  · exact h.stays

/-- **A segment that was sent keeps the receiver in step**, however old it is. -/
theorem Lane.segmentReceived (h : Lane T isn log hist x y) (few : x.sender.nextSeqno < 2 ^ 30)
    {r : TCPReceiver} (flagged : y.receiver.Flagged r) {seg : TCPSegment} (sent : seg ∈ x.segmentsOut)
    (kept : seg.header.rst = false) : Lane.Moved isn log x y (r.segmentReceived seg) := by
  have hshort := h.short few
  have hmoved := h.moved_refl.flagged flagged
  have hfin := r.segmentReceived_receivedFin seg
  have hstays : y.receiver.receivedFin = true → (r.segmentReceived seg).receivedFin = true := by
    intro hbefore
    rw [hfin, hmoved.stays hbefore, Bool.true_or]
  have hahead : y.receiver.ackNo64 = r.ackNo64 := flagged.same.2.2.1.symm
  rcases h.arrives sent kept with hblank | ⟨hbegun, ⟨i, hcarved⟩, hsyn, hflag⟩
  · rw [(seg.blank_of_length hblank).2.2, Bool.or_false] at hfin
    rcases hmoved.phase with ⟨waiting, hfresh⟩ | ⟨hstarted, hlog⟩
    · rw [hfresh.blank hblank]
      exact hmoved
    · obtain ⟨hafter, hgrow⟩ := hstarted.blank hblank hshort
      exact ⟨.inr ⟨hafter, hlog⟩, .inr (hahead ▸ hgrow), hfin ▸ hmoved.fin, hstays⟩
  · have hnow : (r.segmentReceived seg).receivedFin = true → ∃ seg ∈ log, seg.header.fin = true := by
      rw [hfin, Bool.or_eq_true]
      exact fun hor => hor.elim hmoved.fin hflag
    rcases hmoved.phase with ⟨waiting, hfresh⟩ | ⟨hstarted, -⟩
    · exact ⟨.inr ⟨TCPReceiver.segmentReceived_started (.inl ⟨hfresh, hsyn waiting⟩) hcarved hshort, hbegun⟩,
        .inl waiting, hnow, hstays⟩
    · have hgrow := TCPReceiver.segmentReceived_ackNo64_le hstarted hcarved hshort
      exact ⟨.inr ⟨TCPReceiver.segmentReceived_started (.inr hstarted) hcarved hshort, hbegun⟩,
        .inr (hahead ▸ hgrow), hnow, hstays⟩

theorem Lane.receives (h : Lane T isn log hist x y) (few : x.sender.nextSeqno < 2 ^ 30)
    {r : TCPReceiver} (flagged : y.receiver.Flagged r)
    (delivers : ∀ seg, op = .segmentReceived seg → seg ∈ x.segmentsOut) :
    Lane.Moved isn log x y (receives r op) := by
  have hmoved := h.moved_refl.flagged flagged
  cases op with
  | segmentReceived seg =>
    unfold TCPConnection.receives
    dsimp only
    split
    · exact hmoved
    next hrst => exact h.segmentReceived few flagged (delivers seg rfl) (eq_false_of_ne_true hrst)
  | read len =>
    exact ⟨hmoved.phase.imp (fun ⟨w, hf⟩ => ⟨w, hf.popOutput len⟩) (fun ⟨hs, hb⟩ => ⟨hs.popOutput len, hb⟩),
      hmoved.ahead, hmoved.fin, hmoved.stays⟩
  | _ => exact hmoved

/-- **The receiving end moves**: it stays in step, and acknowledges only what it has. -/
theorem Lane.receive (h : Lane T isn log hist x y) (moved : Lane.Moved isn log x y y'.receiver)
    (wired : Wired queue y y') (plain : ∀ seg ∈ queue, seg.header.ack = false) :
    Lane T isn log hist x y' := by
  refine ⟨h.ledger, ?_, moved.fin, h.wire, fun seg hseg hack => ?_⟩
  · refine moved.phase.imp_left fun ⟨waiting, hfresh⟩ => ⟨hfresh, waiting.small, fun seg hseg => ?_⟩
    rcases wired.cases hseg with hold | rfl | ⟨queued, hmem, rfl⟩
    · exact waiting.silent seg hold
    · rfl
    · exact y'.fillSegFields_noAck hfresh.noSyn (plain queued hmem)
  · rcases wired.cases hseg with hold | rfl | ⟨queued, hmem, rfl⟩
    · rcases moved.ahead with waiting | hle
      · rw [waiting.silent seg hold] at hack
        cases hack
      · obtain ⟨n, hn, hackno⟩ := h.acks seg hold hack
        exact ⟨n, Nat.le_trans hn hle, hackno⟩
    · cases hack
    · rcases moved.phase with ⟨-, hfresh⟩ | ⟨hstarted, -⟩
      · rw [y'.fillSegFields_noAck hfresh.noSyn (plain queued hmem)] at hack
        cases hack
      · refine ⟨_, Nat.le_refl _, ?_⟩
        rw [(y'.fillSegFields_ackno hstarted.syn queued).2, hstarted.isn_eq]

/-- **The own FIN is acknowledged only by a peer that has it.** -/
theorem Lane.acked (h : Lane T isn log hist x y) (ready : x.Ready) (few : x.sender.nextSeqno < 2 ^ 30)
    {seg : TCPSegment} (sent : seg ∈ y.segmentsOut) (numbered : 0 < x.selfFinSeqno)
    (ack : seg.header.ack = true)
    (covers : x.selfFinSeqno ≤ x.unwrapInConnectionSender seg.header.ackno) :
    y.receiver.receivedFin = true := by
  have hfin := ready.sound.numbered numbered
  have hself := h.ledger.selfFin_eq ready hfin
  obtain ⟨n, hn, hackno⟩ := h.acks seg sent ack
  rcases h.phase with waiting | ⟨hstarted, hbegun⟩
  · rw [waiting.silent seg sent] at ack
    cases ack
  · have hle : y.receiver.ackNo64 ≤ x.sender.nextSeqno := h.accounts.ackNo64_le hstarted hbegun h.fin
    have hisn : x.sender.isn = isn := h.accounts.isn_eq
    rw [unwrapInConnectionSender, hisn, hackno, unwrap_wrap isn (by omega) (by omega) (by omega),
      hself] at covers
    have hfinished := h.finished hfin
    have hwithin := hstarted.safe.output.within
    rcases hstarted.acked with hack | ⟨-, -, hcaught⟩
    · omega
    · exact hcaught

variable {c : TCPConnection}

/-- A connection sends its FIN in order: when its stream has ended and its FIN is still to be sent, and a
FIN of the peer has arrived or arrives, then the receiver has everything up to that FIN. -/
def Orderly (c : TCPConnection) (op : Op) : Prop :=
  c.sender.finSent = false → (c.sender.stream.isEnd = true ∨ endsInput op = true) →
    (c.firstReceiveFin = true ∨ finArrives op = true) → (receives c.receiver op).Caught

instance (c : TCPConnection) (op : Op) : Decidable (c.Orderly op) :=
  inferInstanceAs (Decidable (_ → _ → _ → _))

end TCPConnection

/-! ## Two ends -/

/-- A connection, the segments it was handed, and whether it has lingered to the end. -/
structure Peer where
  conn : TCPConnection
  heard : List TCPSegment
  lingered : Bool

namespace Peer

open TCPConnection (Op)

def new (cfg : TCPConfig) : Peer := ⟨TCPConnection.new cfg, [], false⟩

def step (p : Peer) (op : Op) : Peer where
  conn := p.conn.step op
  heard := match op with
    | .segmentReceived seg => p.heard ++ [seg]
    | _ => p.heard
  lingered := p.lingered || p.conn.lingersOut op

/-- The segment acknowledges the FIN of the peer that is handed it. -/
def Covered (p : Peer) (seg : TCPSegment) : Prop :=
  p.conn.sender.finSent = true ∧ seg.header.ack = true ∧
    p.conn.sender.nextSeqno ≤ p.conn.unwrapInConnectionSender seg.header.ackno

instance (p : Peer) (seg : TCPSegment) : Decidable (p.Covered seg) :=
  inferInstanceAs (Decidable (_ ∧ _ ∧ _))

variable {x y : Peer} {T T₂ : Bytes} {isn isn₂ : WrappingInt32} {log hist log₂ hist₂ : List TCPSegment}

theorem heard_step (p : Peer) (op : Op) {seg : TCPSegment} (heard : seg ∈ p.heard) :
    seg ∈ (p.step op).heard := by
  cases op with
  | segmentReceived seg => exact List.mem_append_left _ heard
  | _ => exact heard

/-- What holds of one end, as seen from the other. -/
structure Half (T : Bytes) (isn : WrappingInt32) (log hist : List TCPSegment) (x y : Peer) : Prop where
  ready : x.conn.Ready
  few : x.conn.sender.nextSeqno < 2 ^ 31
  lane : TCPConnection.Lane T isn log hist x.conn y.conn
  flags : TCPConnection.Flags x.lingered x.conn
  acked : x.conn.selfFinAcked = true → y.conn.receiver.receivedFin = true
  caught : x.conn.firstReceiveFin = true → x.conn.sender.finSent = true → x.conn.receiver.Caught
  covers : x.conn.firstReceiveFin = true → ∀ seg ∈ x.conn.segmentsOut, seg.header.fin = true →
    seg.header.ack = true ∧ seg.header.ackno = wrap x.conn.receiver.lastNo x.conn.receiver.isn
  heard : y.conn.receiver.receivedFin = true →
    ∃ seg ∈ y.heard, seg.header.fin = true ∧ seg ∈ x.conn.segmentsOut

theorem half_new (cfg cfg' : TCPConfig) : Half [] cfg.isn [] [] (new cfg) (new cfg') where
  ready := TCPConnection.ready_new cfg
  few := by show 0 < 2 ^ 31; omega
  lane := TCPConnection.lane_new cfg cfg'
  flags := TCPConnection.flags_new cfg
  acked := nofun
  caught := nofun
  covers := nofun
  heard := nofun

/-- A FIN on the wire was sent by the sender. -/
theorem Half.finSent (h : Half T isn log hist x y) {seg : TCPSegment} (sent : seg ∈ x.conn.segmentsOut)
    (fin : seg.header.fin = true) : x.conn.sender.finSent = true := by
  rcases h.lane.wire seg sent with rfl | ⟨queued, hqueued, win, ack, ackno, rfl⟩
  · cases fin
  · have hfin : queued.header.fin = true := fin
    have hlogged := h.lane.ledger.books.fin_logged (List.mem_append_left _ hqueued) hfin
    exact (h.lane.ledger.books.fin_number hlogged hfin).1

/-- Behind its FIN, an end has a FIN flag set. -/
theorem Half.order (h : Half T isn log hist x y) (fin : x.conn.sender.finSent = true) :
    x.conn.firstSendFin = true ∨ x.conn.firstReceiveFin = true := by
  refine h.flags.order ?_
  have hself := h.lane.ledger.selfFin_eq h.ready fin
  have hfinished := h.lane.finished fin
  omega

/-- If the peer's FIN counts as the first, it did so before the own FIN was sent. -/
theorem Half.first (h : Half T isn log hist x y) {op : Op} (fin : x.conn.sender.finSent = true)
    (first : (x.conn.step op).firstReceiveFin = true) : x.conn.firstReceiveFin = true := by
  rcases h.order fin with hsend | hreceive
  · rw [h.ready.firstReceiveFin (x.conn.call_step op), hsend, Bool.not_true, Bool.and_false,
      Bool.or_false] at first
    exact first
  · exact hreceive

variable {op : Op}

/-- **An orderly end that closes second has the peer's FIN when it sends its own.** -/
theorem Half.caught_step (h : Half T isn log hist x y) (back : Half T₂ isn₂ log₂ hist₂ y x)
    (later : TCPConnection.Lane.Moved isn₂ log₂ y.conn x.conn (x.conn.step op).receiver)
    (orderly : x.conn.Orderly op) (first : (x.conn.step op).firstReceiveFin = true)
    (fin : (x.conn.step op).sender.finSent = true) : (x.conn.step op).receiver.Caught := by
  cases hbefore : x.conn.sender.finSent with
  | true =>
    have hcaught := h.caught (h.first hbefore first) hbefore
    have hstarted := back.lane.started hcaught.1
    have hfin := later.stays hcaught.1
    have hnot : ¬TCPConnection.Waiting log₂ y.conn x.conn := by
      intro waiting
      have hnone := waiting.fresh.noFin
      rw [hcaught.1] at hnone
      cases hnone
    have hlater := (later.phase.resolve_left fun hc => hnot hc.1).1
    exact hcaught.later hstarted hlater hfin (later.ahead.resolve_left hnot)
  | false =>
    obtain ⟨r, -, hsame, hafter⟩ := h.ready.receiver (x.conn.call_step op)
    rw [hsame hbefore] at hafter
    refine (orderly hbefore (h.ready.finSent (x.conn.call_step op) fin) ?_).flagged hafter
    rw [h.ready.firstReceiveFin (x.conn.call_step op), Bool.or_eq_true, Bool.and_eq_true] at first
    exact first.imp_right And.left

/-- Every FIN that such an end sends acknowledges the peer's FIN. -/
theorem Half.covers_step (h : Half T isn log hist x y) (back : Half T₂ isn₂ log₂ hist₂ y x)
    {queue : List TCPSegment} (later : TCPConnection.Lane T₂ isn₂ log₂ hist₂ y.conn (x.conn.step op))
    (caught : (x.conn.step op).firstReceiveFin = true → (x.conn.step op).sender.finSent = true →
      (x.conn.step op).receiver.Caught)
    (sends : ∀ seg ∈ queue, seg.header.fin = true → (x.conn.step op).sender.finSent = true)
    (keeps : x.conn.sender.finSent = true → (x.conn.step op).sender.finSent = true)
    (wired : TCPConnection.Wired queue x.conn (x.conn.step op))
    (first : (x.conn.step op).firstReceiveFin = true) {seg : TCPSegment}
    (sent : seg ∈ (x.conn.step op).segmentsOut) (fin : seg.header.fin = true) :
    seg.header.ack = true ∧
      seg.header.ackno = wrap (x.conn.step op).receiver.lastNo (x.conn.step op).receiver.isn := by
  rcases wired.cases sent with hold | rfl | ⟨queued, hmem, rfl⟩
  · have hsent := h.finSent hold fin
    have hfirst := h.first hsent first
    have hbefore := h.caught hfirst hsent
    have hafter := caught first (keeps hsent)
    have hstarted := back.lane.started hbefore.1
    have hlater := later.started hafter.1
    rw [hlater.last hafter.1, hlater.isn_eq, ← hstarted.last hbefore.1, ← hstarted.isn_eq]
    exact h.covers hfirst seg hold fin
  · cases fin
  · rw [TCPConnection.fillSegFields_fin] at fin
    have hafter := caught first (sends queued hmem fin)
    obtain ⟨hack, hackno⟩ :=
      (x.conn.step op).fillSegFields_ackno (later.started hafter.1).syn queued
    exact ⟨hack, hafter.2 ▸ hackno⟩

/-- A FIN that an end has received is among what it heard. -/
theorem Half.heard_step (back : Half T₂ isn₂ log₂ hist₂ y x) {r : TCPReceiver}
    (flagged : x.conn.receiver.Flagged r)
    (delivers : ∀ seg, op = .segmentReceived seg → seg ∈ y.conn.segmentsOut)
    (fin : (TCPConnection.receives r op).receivedFin = true) :
    ∃ seg ∈ (x.step op).heard, seg.header.fin = true ∧ seg ∈ y.conn.segmentsOut := by
  rw [TCPConnection.receives_receivedFin, Bool.or_eq_true] at fin
  rcases fin with hbefore | hnow
  · obtain ⟨isEnd, error, rfl⟩ := flagged
    obtain ⟨seg, hseg, hfin, hsent⟩ := back.heard hbefore
    exact ⟨seg, x.heard_step op hseg, hfin, hsent⟩
  · cases op with
    | segmentReceived seg =>
      rw [TCPConnection.finArrives, Bool.and_eq_true] at hnow
      exact ⟨seg, List.mem_append_right _ (List.mem_singleton_self seg), hnow.2, delivers seg rfl⟩
    | _ => cases hnow

/-- **A step of one end keeps what holds between the two.** -/
theorem Half.move (h : Half T isn log hist x y) (back : Half T₂ isn₂ log₂ hist₂ y x)
    (delivers : ∀ seg, op = .segmentReceived seg → seg ∈ y.conn.segmentsOut)
    (few : x.conn.sender.nextSeqno < 2 ^ 30) (few₂ : y.conn.sender.nextSeqno < 2 ^ 30)
    (orderly : x.conn.Orderly op) : ∃ T' log' hist', Half T' isn log' hist' (x.step op) y ∧
      Half T₂ isn₂ log₂ hist₂ y (x.step op) := by
  have hcall := x.conn.call_step op
  obtain ⟨T', new, queue, hledger, hnext, hwired⟩ := h.lane.ledger.call h.ready (by omega) hcall
  have hqueued : ∀ seg ∈ queue, seg ∈ ((x.conn.step op).sender.behind (hist ++ queue)).segmentsOut :=
    fun seg hseg => List.mem_append_left _ (List.mem_append_right _ hseg)
  -- the lane to the peer: the sender moves on
  have hlane := h.lane.send hledger hwired fun waiting =>
    h.ready.reaches waiting.small hcall fun seg hop => waiting.silent seg (delivers seg hop)
  -- the lane from the peer: the receiver does
  obtain ⟨r, hflagged, -, hafter⟩ := h.ready.receiver (x.conn.call_step op)
  have hmoved := (back.lane.receives few₂ hflagged delivers).flagged hafter
  have hback := back.lane.receive hmoved hwired fun seg hseg =>
    hledger.books.plain seg (.inr (hqueued seg hseg))
  have hcaught := h.caught_step back hmoved orderly
  have hsends : ∀ seg ∈ queue, seg.header.fin = true → (x.conn.step op).sender.finSent = true := by
    intro seg hseg hfin
    exact (hledger.books.fin_number (hledger.books.fin_logged (hqueued seg hseg) hfin) hfin).1
  have hkeeps : x.conn.sender.finSent = true → (x.conn.step op).sender.finSent = true := by
    intro hfin
    obtain ⟨seg, hseg, hflag⟩ := h.lane.ledger.books.finLogged hfin
    exact (hledger.books.fin_number (List.mem_append_left _ hseg) hflag).1
  refine ⟨T', log ++ new, hist ++ queue,
    ⟨h.ready.step op, Nat.lt_of_le_of_lt hnext (by omega), hlane, h.flags.call h.ready hcall,
      fun hacked => ?_, hcaught, fun first _ => h.covers_step back hback hcaught hsends hkeeps hwired first,
      fun hfin => ?_⟩,
    ⟨back.ready, back.few, hback, back.flags, fun hacked => hmoved.stays (back.acked hacked), back.caught,
      back.covers, fun hfin => ?_⟩⟩
  · rcases h.ready.selfFinAcked hcall hacked with hbefore | ⟨seg, hop, hpos, hack, hcovers⟩
    · exact h.acked hbefore
    · exact h.lane.acked h.ready few (delivers seg hop) hpos hack hcovers
  · obtain ⟨seg, hseg, hflag, hsent⟩ := h.heard hfin
    exact ⟨seg, hseg, hflag, hwired.mem hsent⟩
  · refine back.heard_step hflagged delivers ?_
    obtain ⟨isEnd, error, heq⟩ := hafter
    have hfin : (x.conn.step op).receiver.receivedFin = true := hfin
    rw [heq] at hfin
    exact hfin

/-- **An end that closed without lingering was heard.** -/
theorem Half.covered (h : Half T isn log hist x y) (back : Half T₂ isn₂ log₂ hist₂ y x)
    (inactive : x.conn.active = false) (noRst : x.conn.rst = false) (hurried : x.lingered = false) :
    ∃ seg ∈ y.heard, seg ∈ x.conn.segmentsOut ∧ y.Covered seg := by
  unfold TCPConnection.active at inactive
  rw [noRst, Bool.not_false, Bool.and_true, Bool.not_eq_false', Bool.and_eq_true, Bool.and_eq_true,
    Bool.not_eq_true'] at inactive
  obtain ⟨⟨hacked, hacking⟩, hgone⟩ := inactive
  -- it was not to linger, so the peer's FIN came first
  have hdropped : x.conn.lingerAfterStreamsFinish = false := by
    by_contra hc
    rcases h.flags.lingers hacked hacking (eq_true_of_ne_false hc) with hlinger | hlingered
    · rw [hgone] at hlinger
      cases hlinger
    · rw [hurried] at hlingered
      cases hlingered
  have hfirst : x.conn.firstReceiveFin = true := by
    refine (h.flags.dropped hdropped).resolve_right ?_
    rw [noRst]
    exact Bool.false_ne_true
  -- the peer has a FIN of this end, and that FIN acknowledged the peer's own
  obtain ⟨seg, hheard, hfin, hsent⟩ := h.heard (h.acked hacked)
  obtain ⟨hack, hackno⟩ := h.covers hfirst seg hsent hfin
  have hcaught := h.caught hfirst (h.finSent hsent hfin)
  have hstarted := back.lane.started hcaught.1
  obtain ⟨logged, hlogged, hflag⟩ := back.lane.fin hcaught.1
  have hpeer : y.conn.sender.finSent = true :=
    (back.lane.ledger.books.fin_number hlogged hflag).1
  have hisn : y.conn.sender.isn = isn₂ := back.lane.accounts.isn_eq
  have hfew := back.few
  refine ⟨seg, hheard, hsent, hpeer, hack, Nat.le_of_eq (Eq.symm ?_)⟩
  rw [TCPConnection.unwrapInConnectionSender, hackno, hstarted.isn_eq, hisn, hstarted.last hcaught.1,
    ← back.lane.finished hpeer, unwrap_wrap isn₂ (by omega) (by omega) (by omega)]

end Peer

/-- One of the two ends. -/
inductive Side
  | left
  | right

def Side.other : Side → Side
  | .left => .right
  | .right => .left

/-- Two connections that exchange segments. The network holds everything either of them ever sent. -/
structure Pair where
  left : Peer
  right : Peer

namespace Pair

/-- One of the ends does something. -/
abbrev Op := Side × TCPConnection.Op

def new (cfg cfg' : TCPConfig) : Pair := ⟨Peer.new cfg, Peer.new cfg'⟩

def on (s : Pair) : Side → Peer
  | .left => s.left
  | .right => s.right

def step (s : Pair) : Op → Pair
  | (.left, op) => { s with left := s.left.step op }
  | (.right, op) => { s with right := s.right.step op }

/-- An end is handed only what the other one has sent: again or never, in any order. -/
def Delivers (s : Pair) : Op → Prop
  | (side, .segmentReceived seg) => seg ∈ (s.on side.other).conn.segmentsOut
  | _ => True

instance (s : Pair) : ∀ op, Decidable (Delivers s op)
  | (_, .segmentReceived _) => inferInstanceAs (Decidable (_ ∈ _))
  | (_, .connect) | (_, .write _) | (_, .endInputStream) | (_, .tick _) | (_, .read _) =>
    inferInstanceAs (Decidable True)

/-- Either end has used fewer than `2 ^ 30` sequence numbers. -/
def Few (s : Pair) : Prop :=
  s.left.conn.sender.nextSeqno < 2 ^ 30 ∧ s.right.conn.sender.nextSeqno < 2 ^ 30

/-- The network delivers what was sent, and the ends send their FINs in order. -/
def Allowed (s : Pair) (op : Op) : Prop :=
  s.Delivers op ∧ s.Few ∧ (s.on op.1).conn.Orderly op.2

instance (s : Pair) (op : Op) : Decidable (s.Allowed op) :=
  inferInstanceAs (Decidable (_ ∧ (_ ∧ _) ∧ _))

variable {s : Pair} {cfg cfg' : TCPConfig}

theorem Delivers.sent {side : Side} {op : TCPConnection.Op} (h : s.Delivers (side, op)) :
    ∀ seg, op = .segmentReceived seg → seg ∈ (s.on side.other).conn.segmentsOut := by
  rintro seg rfl
  exact h

/-- What holds of the two ends. -/
def Joint (isn isn' : WrappingInt32) (s : Pair) : Prop :=
  (∃ T log hist, Peer.Half T isn log hist s.left s.right) ∧
    ∃ T log hist, Peer.Half T isn' log hist s.right s.left

theorem Joint.step {isn isn' : WrappingInt32} (h : Joint isn isn' s) {op : Op} (allowed : s.Allowed op) :
    Joint isn isn' (s.step op) := by
  obtain ⟨⟨T, log, hist, hleft⟩, T', log', hist', hright⟩ := h
  obtain ⟨side, op⟩ := op
  obtain ⟨hdelivers, hfew, horderly⟩ := allowed
  have hsent := hdelivers.sent
  cases side with
  | left =>
    obtain ⟨T₂, log₂, hist₂, hmoved, hback⟩ := hleft.move hright hsent hfew.1 hfew.2 horderly
    exact ⟨⟨T₂, log₂, hist₂, hmoved⟩, T', log', hist', hback⟩
  | right =>
    obtain ⟨T₂, log₂, hist₂, hmoved, hback⟩ := hright.move hleft hsent hfew.2 hfew.1 horderly
    exact ⟨⟨T, log, hist, hback⟩, T₂, log₂, hist₂, hmoved⟩

/-- **Skipping the linger is safe** between orderly ends that use fewer than `2 ^ 30` sequence numbers, over
a network that loses, repeats and reorders: if an end is inactive without a reset and without having
lingered to the end, the other end has been handed a segment of it that acknowledges its FIN. -/
theorem skipped_linger_covered (run : Runs.Reach step Allowed (new cfg cfg') s) (side : Side)
    (inactive : (s.on side).conn.active = false) (noRst : (s.on side).conn.rst = false)
    (hurried : (s.on side).lingered = false) :
    ∃ seg ∈ (s.on side.other).heard, seg ∈ (s.on side).conn.segmentsOut ∧
      (s.on side.other).Covered seg := by
  have hjoint : Joint cfg.isn cfg'.isn s := by
    refine run.invariant (Joint cfg.isn cfg'.isn) ?_ fun s op h allowed => h.step allowed
    exact ⟨⟨_, _, _, Peer.half_new cfg cfg'⟩, _, _, _, Peer.half_new cfg' cfg⟩
  obtain ⟨⟨_, _, _, hleft⟩, _, _, _, hright⟩ := hjoint
  cases side with
  | left => exact hleft.covered hright inactive noRst hurried
  | right => exact hright.covered hleft inactive noRst hurried

/-- The right end sends a byte and closes, the left end closes second and does not linger. -/
theorem skipped_linger_covered_byte :
    let cfg : TCPConfig := { recvCapacity := 8, sendCapacity := 8 }
    let syn : TCPSegment :=
      { header := { seqno := ⟨0⟩, syn := true, win := 8 }, payload := Buffer.ofString [] }
    let synAck : TCPSegment :=
      { header := { seqno := ⟨0⟩, syn := true, ack := true, ackno := ⟨1⟩, win := 8 },
        payload := Buffer.ofString [] }
    let ack : TCPSegment := { header := { seqno := ⟨1⟩, ack := true, ackno := ⟨1⟩, win := 8 } }
    let data : TCPSegment :=
      { header := { seqno := ⟨1⟩, ack := true, ackno := ⟨1⟩, win := 8 }, payload := Buffer.ofString [1] }
    let fin : TCPSegment :=
      { header := { seqno := ⟨2⟩, fin := true, ack := true, ackno := ⟨1⟩, win := 8 },
        payload := Buffer.ofString [] }
    let ownFin : TCPSegment :=
      { header := { seqno := ⟨1⟩, fin := true, ack := true, ackno := ⟨3⟩, win := 7 },
        payload := Buffer.ofString [] }
    let last : TCPSegment := { header := { seqno := ⟨3⟩, ack := true, ackno := ⟨2⟩, win := 8 } }
    let s := [(.left, .connect), (.right, .segmentReceived syn), (.left, .segmentReceived synAck),
      (.right, .segmentReceived ack), (.right, .write [1]), (.right, .endInputStream),
      (.left, .segmentReceived data), (.left, .segmentReceived fin), (.left, .endInputStream),
      (.right, .segmentReceived ownFin), (.left, .segmentReceived last)].foldl step (new cfg cfg)
    ∃ seg ∈ s.right.heard, seg ∈ s.left.conn.segmentsOut ∧ s.right.Covered seg := by
  intro cfg syn synAck ack data fin ownFin last s
  have run : Runs.Reach step Allowed (new cfg cfg) s := Runs.reach_foldl .start (by decide +kernel)
  exact skipped_linger_covered run .left (by decide +kernel) (by decide +kernel) (by decide +kernel)

/-- **A FIN that overtakes the data makes the linger skipped too early.** The right end's FIN arrives before
its byte. The left end sends its own FIN, which cannot acknowledge that FIN; it is acknowledged. Then the
byte arrives: the left end acknowledges everything and is gone, without the right end having heard it. -/
theorem overtaking_fin_unheard :
    let cfg : TCPConfig := { recvCapacity := 8, sendCapacity := 8 }
    let syn : TCPSegment :=
      { header := { seqno := ⟨0⟩, syn := true, win := 8 }, payload := Buffer.ofString [] }
    let synAck : TCPSegment :=
      { header := { seqno := ⟨0⟩, syn := true, ack := true, ackno := ⟨1⟩, win := 8 },
        payload := Buffer.ofString [] }
    let ack : TCPSegment := { header := { seqno := ⟨1⟩, ack := true, ackno := ⟨1⟩, win := 8 } }
    let data : TCPSegment :=
      { header := { seqno := ⟨1⟩, ack := true, ackno := ⟨1⟩, win := 8 }, payload := Buffer.ofString [1] }
    let fin : TCPSegment :=
      { header := { seqno := ⟨2⟩, fin := true, ack := true, ackno := ⟨1⟩, win := 8 },
        payload := Buffer.ofString [] }
    let ownFin : TCPSegment :=
      { header := { seqno := ⟨1⟩, fin := true, ack := true, ackno := ⟨1⟩, win := 8 },
        payload := Buffer.ofString [] }
    let last : TCPSegment := { header := { seqno := ⟨3⟩, ack := true, ackno := ⟨2⟩, win := 8 } }
    let s := [(.left, .connect), (.right, .segmentReceived syn), (.left, .segmentReceived synAck),
      (.right, .segmentReceived ack), (.right, .write [1]), (.right, .endInputStream),
      (.left, .segmentReceived fin), (.left, .endInputStream), (.right, .segmentReceived ownFin),
      (.left, .segmentReceived last), (.left, .segmentReceived data)].foldl step (new cfg cfg)
    Runs.Reach step Delivers (new cfg cfg) s ∧ s.left.conn.active = false ∧ s.left.conn.rst = false ∧
      s.left.lingered = false ∧ s.right.conn.sender.finSent = true ∧
      ∀ seg ∈ s.right.heard, ¬s.right.Covered seg := by
  intro cfg syn synAck ack data fin ownFin last s
  exact ⟨Runs.reach_foldl .start (by decide +kernel), by decide +kernel, by decide +kernel,
    by decide +kernel, by decide +kernel, by decide +kernel⟩

end Pair

end Sponge
