import Sponge.Laws.Tcp.Calls

/-!
# Laws.Tcp.Outgoing — a connection and the queue its owner pops

Three facts that a connection's owner relies on. What the owner has popped from the queue `segments_out`
does not matter to the connection (`step_behind`). What arrives may differ from what was sent in its ports,
its checksum and the storage of its payload, and the connection does not see it (`segmentReceived_alike`).
And whatever arrives, everything a connection sends has a header without options and a payload that fits a
datagram, and resets nobody unless the connection itself is reset (`Tidy`).
-/

namespace Sponge

namespace TCPSegment

/-- The same segment for a connection: in what a connection reads of it. -/
structure Alike (got seg : TCPSegment) : Prop where
  seqno : got.header.seqno = seg.header.seqno
  ackno : got.header.ackno = seg.header.ackno
  ack : got.header.ack = seg.header.ack
  rst : got.header.rst = seg.header.rst
  syn : got.header.syn = seg.header.syn
  fin : got.header.fin = seg.header.fin
  win : got.header.win = seg.header.win
  payload : got.payload.str = seg.payload.str

/-- No options, and a payload that fits. -/
def Small (seg : TCPSegment) : Prop := seg.header.doff = 5 ∧ seg.payload.size ≤ MAX_PAYLOAD_SIZE

/-- What a sender holds: small, and no reset. -/
def Plain (seg : TCPSegment) : Prop := seg.Small ∧ seg.header.rst = false

end TCPSegment

/-! ## What arrives -/

section Alike

variable {got seg : TCPSegment} (alike : got.Alike seg)

include alike

theorem TCPSegment.Alike.length : got.lengthInSequenceSpace = seg.lengthInSequenceSpace := by
  unfold TCPSegment.lengthInSequenceSpace
  rw [alike.payload, alike.syn, alike.fin]

theorem TCPReceiver.segmentReceived_alike (r : TCPReceiver) :
    r.segmentReceived got = r.segmentReceived seg := by
  have hsyn : r.acceptSyn got = r.acceptSyn seg := by
    unfold acceptSyn
    rw [alike.syn, alike.seqno]
  have hpayload (r : TCPReceiver) : r.acceptPayload got = r.acceptPayload seg := by
    have hcut : r.cutToWindow got = r.cutToWindow seg := by
      unfold cutToWindow
      rw [alike.length, alike.seqno, Buffer.copy_eq, Buffer.copy_eq, alike.payload]
    have hindex : r.pushIndex got = r.pushIndex seg := by
      unfold pushIndex
      rw [alike.syn, alike.seqno]
    unfold acceptPayload
    rw [hcut, hindex, alike.fin, Buffer.copy_eq, Buffer.copy_eq, alike.payload]
  have hfin (r : TCPReceiver) : r.noteFin got = r.noteFin seg := by
    unfold noteFin
    rw [alike.fin, alike.seqno, alike.length]
  unfold segmentReceived
  rw [hsyn, hpayload, hfin]

/-- **A connection does not see the ports, the checksum or the storage of a segment.** -/
theorem TCPConnection.segmentReceived_alike (c : TCPConnection) :
    c.segmentReceived got = c.segmentReceived seg := by
  have hchecked : c.checkRcvFin got = c.checkRcvFin seg := by
    unfold checkRcvFin notePeerFin noteFinAcked
    rw [alike.fin, alike.seqno, alike.length, alike.ack, alike.ackno]
  have hasks (r : TCPReceiver) : r.asksForAck got = r.asksForAck seg := by
    unfold TCPReceiver.asksForAck
    rw [alike.length, alike.seqno]
  have hanswer (s : TCPSender) : s.answer got = s.answer seg := by
    unfold TCPSender.answer
    rw [alike.ack, alike.ackno, alike.win, alike.syn]
  have hhandle : c.handle got = c.handle seg := by
    unfold handle
    rw [hchecked]
    dsimp only
    rw [TCPReceiver.segmentReceived_alike alike, hasks, hanswer]
  unfold segmentReceived
  rw [alike.rst, hhandle]

end Alike

namespace TCPConnection

variable {c c' : TCPConnection} {op : Op} {seg : TCPSegment} {popped : List TCPSegment}

/-! ## What was popped -/

/-- The connection with segments put back in front of its queue. -/
def behind (c : TCPConnection) (popped : List TCPSegment) : TCPConnection :=
  { c with segmentsOut := popped ++ c.segmentsOut }

theorem behind_ite (p : Prop) [Decidable p] :
    (if p then c else c').behind popped = if p then c.behind popped else c'.behind popped :=
  apply_ite (fun c : TCPConnection => c.behind popped) p c c'

theorem checkLinger_behind : (c.behind popped).checkLinger = c.checkLinger.behind popped := by
  unfold checkLinger
  rw [behind_ite, behind_ite]
  rfl

theorem noteFinAcking_behind :
    (c.behind popped).noteFinAcking seg = (c.noteFinAcking seg).behind popped := by
  unfold noteFinAcking
  rw [behind_ite, behind_ite, ← checkLinger_behind]
  rfl

theorem noteFinAcked_behind :
    (c.behind popped).noteFinAcked seg = (c.noteFinAcked seg).behind popped := by
  unfold noteFinAcked
  rw [behind_ite, behind_ite, ← checkLinger_behind]
  rfl

theorem sendSeg_behind : (c.behind popped).sendSeg seg = (c.sendSeg seg).behind popped := by
  have hself (seg : TCPSegment) : (c.behind popped).noteSelfFin seg = (c.noteSelfFin seg).behind popped := by
    unfold noteSelfFin
    rw [behind_ite]
    rfl
  have hfill : (c.behind popped).fillSegFields seg = c.fillSegFields seg := rfl
  unfold sendSeg checkSendFin
  dsimp only
  rw [hfill, hself, noteFinAcking_behind]
  unfold behind
  rw [List.append_assoc]

theorem sendSegs_behind : (c.behind popped).sendSegs = c.sendSegs.behind popped := by
  have hloop (queue : List TCPSegment) (c : TCPConnection) :
      queue.foldl sendSeg (c.behind popped) = (queue.foldl sendSeg c).behind popped := by
    induction queue generalizing c with
    | nil => rfl
    | cons seg queue ih => rw [List.foldl_cons, List.foldl_cons, sendSeg_behind, ih]
  unfold sendSegs
  dsimp only
  rw [show (c.behind popped).sender = c.sender from rfl, hloop]
  rfl

theorem handle_behind : (c.behind popped).handle seg = (c.handle seg).behind popped := by
  have hpeer : (c.behind popped).notePeerFin seg = (c.notePeerFin seg).behind popped := by
    unfold notePeerFin
    rw [behind_ite]
    rfl
  unfold handle checkRcvFin
  dsimp only
  rw [hpeer, noteFinAcked_behind]
  rfl

theorem reset_behind (isActive : Bool) :
    (c.behind popped).reset isActive = (c.reset isActive).behind popped := by
  unfold reset behind
  rw [List.append_assoc]

theorem tick_behind (ms : Nat) : (c.behind popped).tick ms = (c.tick ms).behind popped := by
  have hexpiry (c : TCPConnection) : (c.behind popped).checkExpiry = c.checkExpiry.behind popped := by
    unfold checkExpiry
    rw [behind_ite]
    rfl
  unfold tick checkTimers
  rw [behind_ite, behind_ite, ← sendSegs_behind, ← sendSegs_behind,
    ← reset_behind, ← hexpiry]
  rfl

/-- **What the owner has popped does not matter.** -/
theorem step_behind (op : Op) : (c.behind popped).step op = (c.step op).behind popped := by
  cases op with
  | connect => exact sendSegs_behind (c := { c with sender := c.sender.fillWindow })
  | write data =>
    show ((c.behind popped).write data).1 = (c.write data).1.behind popped
    unfold write
    split
    · rfl
    · exact sendSegs_behind (c := { c with sender := (c.sender.write data).fillWindow })
  | endInputStream => exact sendSegs_behind (c := { c with sender := c.sender.endInput.fillWindow })
  | tick ms => exact tick_behind ms
  | segmentReceived seg =>
    show (c.behind popped).segmentReceived seg = (c.segmentReceived seg).behind popped
    unfold segmentReceived
    rw [behind_ite, ← sendSegs_behind, ← reset_behind, handle_behind]
  | read len => rfl

end TCPConnection

/-! ## What is sent -/

namespace TCPSender

variable {s : TCPSender}

/-- All that the sender holds or has queued is plain. -/
def HoldsPlain (s : TCPSender) : Prop :=
  ∀ seg, seg ∈ s.outstandingBuffer ∨ seg ∈ s.segmentsOut → seg.Plain

theorem HoldsPlain.append (h : s.HoldsPlain) {again : List TCPSegment} (plain : ∀ seg ∈ again, seg.Plain) :
    ({ s with segmentsOut := s.segmentsOut ++ again } : TCPSender).HoldsPlain := by
  rintro seg (hseg | hseg)
  · exact h seg (.inl hseg)
  · exact (List.mem_append.mp hseg).elim (fun hold => h seg (.inr hold)) (plain seg)

theorem fresh_plain (s : TCPSender) {data : Bytes} (short : data.length ≤ MAX_PAYLOAD_SIZE) (fin : Bool) :
    (s.fresh data fin).Plain := by
  refine ⟨⟨rfl, ?_⟩, rfl⟩
  show (Buffer.ofString data).str.length ≤ _
  rwa [Buffer.str_ofString]

theorem HoldsPlain.send (h : s.HoldsPlain) {data : Bytes} (short : data.length ≤ MAX_PAYLOAD_SIZE)
    (fin : Bool) : (s.send data fin).HoldsPlain := by
  rintro seg (hseg | hseg)
  · refine (List.mem_append.mp hseg).elim (fun hold => h seg (.inl hold)) fun hnew => ?_
    rw [List.mem_singleton.mp hnew]
    exact s.fresh_plain short fin
  · refine (List.mem_append.mp hseg).elim (fun hold => h seg (.inr hold)) fun hnew => ?_
    rw [List.mem_singleton.mp hnew]
    exact s.fresh_plain short fin

theorem HoldsPlain.fillWindow (h : s.HoldsPlain) (finLast : s.FinLast) : s.fillWindow.HoldsPlain := by
  have hloop (fuel : Nat) : ∀ s : TCPSender, s.HoldsPlain → s.FinLast → (fillLoop fuel s).HoldsPlain := by
    induction fuel with
    | zero => exact fun s h _ => h
    | succ fuel ih =>
      intro s h finLast
      rw [fillLoop_succ]
      rcases fillTurn_cases finLast with ⟨heq, -⟩ | ⟨data, fin, go, heq, -, hsend, -, hshort⟩
      · rw [heq]
        exact h
      · rw [heq]
        have hsent := h.send hshort fin
        dsimp only
        split
        · exact ih _ hsent (send_finLast hsend)
        · exact hsent
  exact hloop _ s h finLast

theorem HoldsPlain.answer (h : s.HoldsPlain) (marked : s.Marked) (seg : TCPSegment) :
    (s.answer seg).HoldsPlain := by
  unfold TCPSender.answer
  split
  · rw [ackReceived_eq]
    split
    · exact h
    · refine HoldsPlain.fillWindow ?_ (marked.acceptAck _ _).finLast
      rintro held (hheld | hheld)
      · exact h held (.inl ((ackLoop_suffix s.isn _ s.outstandingBuffer s.ackedNext s.bytesInFlight
          false).mem hheld))
      · exact h held (.inr hheld)
  · split
    · exact h.fillWindow marked.finLast
    · exact h

theorem HoldsPlain.acknowledge (h : s.HoldsPlain) (asked : Bool) : (s.acknowledge asked).HoldsPlain := by
  unfold TCPSender.acknowledge
  split
  · refine h.append fun seg hseg => ?_
    rw [List.mem_singleton.mp hseg]
    exact ⟨⟨rfl, Nat.zero_le _⟩, rfl⟩
  · exact h

theorem HoldsPlain.tick (h : s.HoldsPlain) (ms : Nat) : (s.tick ms).HoldsPlain := by
  obtain ⟨again, hqueue, hagain⟩ := s.tick_queue ms
  rw [tick_frame, hqueue]
  exact h.append fun seg hseg => h seg (.inl (hagain seg hseg))

end TCPSender

namespace TCPConnection

variable {c c' : TCPConnection} {op : Op} {seg : TCPSegment}

/-- A connection between calls. What it holds is plain, and what it has sent is small, and resets the peer
only if the connection itself is reset. -/
structure Tidy (c : TCPConnection) : Prop where
  ready : c.Ready
  holds : c.sender.HoldsPlain
  sent : ∀ seg ∈ c.segmentsOut, seg.Small ∧ (seg.header.rst = true → c.rst = true)

theorem tidy_new (cfg : TCPConfig) : (new cfg).Tidy where
  ready := ready_new cfg
  holds := fun _ hseg => hseg.elim (absurd · List.not_mem_nil) (absurd · List.not_mem_nil)
  sent := fun _ hseg => absurd hseg List.not_mem_nil

theorem Tidy.turn_holds (h : c.Tidy) (turn : Turn c op c') : c'.sender.HoldsPlain := by
  have hmarked := h.ready.sound.marked
  cases turn with
  | connect => exact h.holds.fillWindow hmarked.finLast
  | write data => exact TCPSender.HoldsPlain.fillWindow h.holds (hmarked.write data).finLast
  | endInputStream => exact TCPSender.HoldsPlain.fillWindow h.holds hmarked.endInput.finLast
  | tick ms alone => exact h.holds.tick ms
  | linger ms lingering => exact h.holds
  | expire ms lingering due => exact h.holds
  | handle seg kept =>
    rw [(h.ready.sound.handle seg).2.1]
    exact (h.holds.answer hmarked seg).acknowledge _

theorem fillSegFields_plain (plain : seg.Plain) : (c.fillSegFields seg).Plain := by
  obtain ⟨win, ack, ackno, heq⟩ := c.fillSegFields_eq seg
  rw [heq]
  exact plain

theorem Tidy.call (h : c.Tidy) (call : Call c op c') : c'.Tidy := by
  have hready := h.ready.call call
  cases call with
  | turn turn =>
    have hholds := h.turn_holds turn
    obtain ⟨-, hout, hrst⟩ := h.ready.sound.turn_frame turn
    obtain ⟨hdrained, -⟩ := (h.ready.sound.turn turn).sendSegs
    refine ⟨hready, ?_, fun seg hseg => ?_⟩
    · rw [hdrained.sender]
      rintro seg (hseg | hseg)
      · exact hholds seg (.inl hseg)
      · exact absurd hseg List.not_mem_nil
    · rw [hdrained.segmentsOut, hout] at hseg
      rw [hdrained.rst, hrst]
      rcases List.mem_append.mp hseg with hold | hnew
      · exact h.sent seg hold
      · obtain ⟨queued, hqueued, rfl⟩ := List.mem_map.mp hnew
        obtain ⟨hsmall, hplain⟩ := fillSegFields_plain (hholds queued (.inr hqueued))
        exact ⟨hsmall, fun hc => absurd (hplain.symm.trans hc) Bool.false_ne_true⟩
  | giveUp ms many =>
    refine ⟨hready, h.holds, fun seg hseg => ?_⟩
    rcases List.mem_append.mp hseg with hold | hnew
    · exact ⟨(h.sent seg hold).1, fun _ => rfl⟩
    · rw [List.mem_singleton.mp hnew]
      exact ⟨⟨rfl, Nat.zero_le _⟩, fun _ => rfl⟩
  | reset seg rst =>
    refine ⟨hready, h.holds, fun seg hseg => ?_⟩
    rcases List.mem_append.mp hseg with hold | hnew
    · exact ⟨(h.sent seg hold).1, fun _ => rfl⟩
    · exact absurd hnew List.not_mem_nil
  | read len => exact ⟨hready, h.holds, h.sent⟩
  | idle data none => exact h

/-- **Whatever arrives, a connection sends small segments**, and a reset only when it is reset. -/
theorem Tidy.step (h : c.Tidy) (op : Op) : (c.step op).Tidy := h.call (c.call_step op)

end TCPConnection

end Sponge
