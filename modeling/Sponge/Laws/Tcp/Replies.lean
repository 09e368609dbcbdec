import Sponge.Laws.Tcp.Connection

/-!
# Laws.Tcp.Replies — when a segment is answered

A segment that arrives makes the sender queue what its acknowledgment allows, and the connection adds an
empty segment when the sender queued nothing and somebody asks for an answer: the segment occupies sequence
numbers, or it is a keep-alive. So an answer is due exactly then, and an empty segment never answers an
empty segment.

Two facts carry it. What `fill_window` queues occupies sequence numbers, so the empty segment is the only
one that does not (`Queues`); and once the SYN was sent the sender's next number is not zero (`Opened`),
which is what the connection asks before it adds the empty segment.
-/

namespace Sponge

namespace TCPSender

variable {s : TCPSender} {seg : TCPSegment}

/-- A SYN that was sent has taken its number. -/
def Opened (s : TCPSender) : Prop := s.synSent = true → 0 < s.nextSeqno

/-- The sender moves on to `s'`, and queues only segments that occupy sequence numbers. -/
structure Queues (s s' : TCPSender) : Prop where
  opened : s'.Opened
  queued : ∃ new, s'.segmentsOut = s.segmentsOut ++ new ∧ ∀ seg ∈ new, 0 < seg.lengthInSequenceSpace
  grows : s.nextSeqno ≤ s'.nextSeqno

/-- Filling the window queues segments that occupy sequence numbers. -/
theorem queues_fillWindow (finLast : s.FinLast) (opened : s.Opened) : Queues s s.fillWindow := by
  obtain ⟨new, hqueued, -, hopened, hlong⟩ := fillLoop_rule
    (P := fun log t => t.FinLast ∧ t.Opened ∧ ∀ seg ∈ log, 0 < seg.lengthInSequenceSpace)
    (fun _ _ h => h.1)
    (fun log t data fin h _ hsend => by
      refine ⟨send_finLast hsend, fun _ => ?_, ?_⟩
      · exact Nat.lt_of_lt_of_le hsend.length_pos (Nat.le_add_left _ _)
      · intro seg hseg
        rcases List.mem_append.mp hseg with hold | hnew
        · exact h.2.2 seg hold
        · rw [List.mem_singleton.mp hnew]
          exact hsend.length_pos)
    (s.fillBound + 1) [] ⟨finLast, opened, by simp⟩
  exact ⟨hopened, ⟨new, hqueued, hlong⟩, s.fillWindow_nextSeqno_le⟩

/-- So does everything a segment makes the sender do. -/
theorem queues_answer (marked : s.Marked) (opened : s.Opened) (seg : TCPSegment) :
    Queues s (s.answer seg) := by
  unfold answer
  split
  · rw [ackReceived_eq]
    split
    · exact ⟨opened, ⟨[], by simp⟩, Nat.le_refl _⟩
    · have hfill := queues_fillWindow
        (marked.acceptAck (unwrap seg.header.ackno s.isn s.ackedNext) seg.header.win).finLast opened
      exact ⟨hfill.opened, hfill.queued, hfill.grows⟩
  · split
    · exact queues_fillWindow marked.finLast opened
    · exact ⟨opened, ⟨[], by simp⟩, Nat.le_refl _⟩

/-- If somebody asks, something is queued behind an answer: an empty segment, if nothing else was. -/
theorem acknowledge_ne_nil (begun : 0 < s.nextSeqno) : (s.acknowledge true).segmentsOut ≠ [] := by
  unfold acknowledge
  split
  next => simp [sendEmptySegment]
  next hother => exact fun hnone => hother ⟨begun, hnone, rfl⟩

/-- If nobody asks, nothing is added. -/
theorem acknowledge_false (s : TCPSender) : s.acknowledge false = s :=
  if_neg fun hasked => Bool.false_ne_true hasked.2.2

end TCPSender

namespace TCPReceiver

variable {r : TCPReceiver} {seg : TCPSegment}

/-- A segment that occupies sequence numbers asks for an answer. -/
theorem asksForAck_of_pos (occupies : 0 < seg.lengthInSequenceSpace) : r.asksForAck seg = true := by
  simp [asksForAck, occupies]

/-- One that occupies none asks for nothing, unless it is a keep-alive. -/
theorem asksForAck_eq_false (blank : seg.lengthInSequenceSpace = 0)
    (seqno : ∀ ackno ∈ r.ackno, seg.header.seqno ≠ ⟨ackno.rawValue - 1⟩) : r.asksForAck seg = false := by
  cases hcurrent : r.ackno with
  | none => simp [asksForAck, blank, hcurrent]
  | some ackno => simp [asksForAck, blank, hcurrent, seqno ackno hcurrent]

end TCPReceiver

namespace TCPConnection

variable {c c' : TCPConnection} {seg : TCPSegment} {op : Op}

/-- Filling in the window and the acknowledgment takes no sequence number. -/
theorem fillSegFields_length (c : TCPConnection) (seg : TCPSegment) :
    (c.fillSegFields seg).lengthInSequenceSpace = seg.lengthInSequenceSpace := by
  obtain ⟨win, ack, ackno, heq⟩ := c.fillSegFields_eq seg
  rw [heq]
  rfl

/-- What holds between calls. -/
structure Poised (c : TCPConnection) : Prop where
  ready : c.Ready
  opened : c.sender.Opened

theorem poised_new (cfg : TCPConfig) : (new cfg).Poised := ⟨ready_new cfg, nofun⟩

/-- The stage of a call before `send_segs` keeps the sender open. -/
theorem Poised.turn (h : c.Poised) (turn : Turn c op c') : c'.sender.Opened := by
  have hmarked := h.ready.sound.marked
  cases turn with
  | connect => exact (TCPSender.queues_fillWindow hmarked.finLast h.opened).opened
  | write data => exact (TCPSender.queues_fillWindow (hmarked.write data).finLast h.opened).opened
  | endInputStream => exact (TCPSender.queues_fillWindow hmarked.endInput.finLast h.opened).opened
  | tick ms alone =>
    show (c.sender.tick ms).Opened
    rw [TCPSender.tick_frame]
    exact h.opened
  | linger ms lingering => exact h.opened
  | expire ms lingering due => exact h.opened
  | handle seg kept =>
    obtain ⟨-, hsender, -⟩ := h.ready.sound.handle seg
    rw [hsender, TCPSender.acknowledge_frame]
    exact (TCPSender.queues_answer hmarked h.opened seg).opened

theorem Poised.call (h : c.Poised) (call : Call c op c') : c'.Poised := by
  refine ⟨h.ready.call call, ?_⟩
  cases call with
  | turn turn =>
    rw [(h.ready.sound.turn turn).sendSegs.1.sender]
    exact h.turn turn
  | giveUp ms many => exact h.opened
  | reset seg rst => exact h.opened
  | read len => exact h.opened
  | idle data none => exact h.opened

/-- A segment that occupies no sequence number leaves the acknowledgment number alone. -/
theorem Sound.handle_blank (h : c.Sound) (seg : TCPSegment) (blank : seg.lengthInSequenceSpace = 0) :
    (c.handle seg).receiver.ackno = c.receiver.ackno := by
  obtain ⟨-, -, hreceiver | hreceiver, -⟩ := h.handle seg
  · rw [hreceiver]
    exact h.settled.blank blank
  · have hended : c.receiver.endInput.Settled := h.settled
    rw [hreceiver, hended.blank blank]
    rfl

/-- **What the sender queues for a segment**, once the SYN was sent: something if the segment asks for it,
and only what occupies sequence numbers if it does not. -/
theorem Poised.queued (h : c.Poised) (syn : c.sender.synSent = true) (seg : TCPSegment) :
    ((c.handle seg).receiver.asksForAck seg = true → (c.handle seg).sender.segmentsOut ≠ []) ∧
      ((c.handle seg).receiver.asksForAck seg = false →
        ∀ queued ∈ (c.handle seg).sender.segmentsOut, 0 < queued.lengthInSequenceSpace) := by
  obtain ⟨-, hsender, -⟩ := h.ready.sound.handle seg
  obtain ⟨-, ⟨new, hqueued, hlong⟩, hgrows⟩ :=
    TCPSender.queues_answer h.ready.sound.marked h.opened seg
  rw [h.ready.empty, List.nil_append] at hqueued
  rw [hsender]
  constructor
  · intro hasked
    rw [hasked]
    exact TCPSender.acknowledge_ne_nil (Nat.lt_of_lt_of_le (h.opened syn) hgrows)
  · intro hquiet
    rw [hquiet, TCPSender.acknowledge_false, hqueued]
    exact hlong

/-- **Replies are sent exactly when due.** In every state a connection comes to with its SYN sent, for
every segment without RST: the sender's queue is empty before the call and behind it. A segment that
occupies sequence numbers is answered. One that occupies none leaves the acknowledgment number alone, and
unless it is a keep-alive, what is sent occupies sequence numbers. Everything that is sent once a SYN has
been received acknowledges what the receiver does behind the segment. -/
theorem replies_when_due {cfg : TCPConfig} (run : Runs.Reach step (fun _ _ => True) (new cfg) c)
    (syn : c.sender.synSent = true) (kept : seg.header.rst = false) :
    let c' := c.segmentReceived seg
    (c.sender.segmentsOut = [] ∧ c'.sender.segmentsOut = []) ∧
      ∃ added, c'.segmentsOut = c.segmentsOut ++ added ∧
        (0 < seg.lengthInSequenceSpace → added ≠ []) ∧
        (seg.lengthInSequenceSpace = 0 →
          c'.receiver.ackno = c.receiver.ackno ∧
          ((∀ ackno ∈ c'.receiver.ackno, seg.header.seqno ≠ ⟨ackno.rawValue - 1⟩) →
            ∀ reply ∈ added, 0 < reply.lengthInSequenceSpace)) ∧
        (c'.receiver.receivedSyn = true →
          ∀ reply ∈ added, reply.header.ack = true ∧ some reply.header.ackno = c'.receiver.ackno) := by
  have h : c.Poised :=
    run.invariant Poised (poised_new cfg) fun c op h _ => h.call (c.call_step op)
  have hcall : c.segmentReceived seg = (c.handle seg).sendSegs := if_neg (by simp [kept])
  have hblank := h.ready.sound.handle_blank seg
  obtain ⟨hdue, hquiet⟩ := h.queued syn seg
  obtain ⟨hsound, -, -, hout, -⟩ := h.ready.sound.handle seg
  rw [hcall]
  generalize c.handle seg = handled at *
  -- `send_segs` moves the queue to the segments going out, each with its fields filled in
  obtain ⟨hdrained, -⟩ := hsound.sendSegs
  obtain ⟨hackno, -, -, hreceivedSyn, -⟩ := (flagged_of_or hdrained.receiver).same
  dsimp only
  rw [hdrained.sender, hdrained.segmentsOut, hout, hackno, hreceivedSyn]
  refine ⟨⟨h.ready.empty, rfl⟩, _, rfl, ?_, ?_, ?_⟩
  · intro hoccupies
    rw [Ne, List.map_eq_nil_iff]
    exact hdue (TCPReceiver.asksForAck_of_pos hoccupies)
  · intro hnone
    refine ⟨hblank hnone, fun hseqno reply hreply => ?_⟩
    obtain ⟨queued, hmem, rfl⟩ := List.mem_map.mp hreply
    rw [fillSegFields_length]
    exact hquiet (TCPReceiver.asksForAck_eq_false hnone hseqno) queued hmem
  · intro hsyn reply hreply
    obtain ⟨queued, -, rfl⟩ := List.mem_map.mp hreply
    obtain ⟨hack, hfilled⟩ := handled.fillSegFields_ackno hsyn queued
    refine ⟨hack, ?_⟩
    rw [hfilled]
    exact (if_pos hsyn).symm

/-- A connection sends its SYN, and the peer's SYN arrives with a byte. -/
theorem replies_when_due_syn :
    let c := [Op.connect].foldl step (new { recvCapacity := 4 })
    let seg : TCPSegment := { header := { seqno := ⟨7⟩, syn := true, ack := true, ackno := ⟨1⟩, win := 10 }
                              payload := Buffer.ofString [1] }
    ∃ added, (c.segmentReceived seg).segmentsOut = c.segmentsOut ++ added ∧ added ≠ [] ∧
      ∀ reply ∈ added, reply.header.ack = true ∧ reply.header.ackno = ⟨9⟩ := by
  intro c seg
  have run : Runs.Reach step (fun _ _ => True) (new { recvCapacity := 4 }) c :=
    Runs.reach_foldl .start (by decide +kernel)
  obtain ⟨-, added, hadded, hdue, -, hacks⟩ :=
    replies_when_due run (by decide +kernel) (show seg.header.rst = false by decide)
  refine ⟨added, hadded, hdue (by decide), fun reply hreply => ?_⟩
  obtain ⟨hack, hackno⟩ := hacks (by decide +kernel) reply hreply
  have hnine : (c.segmentReceived seg).receiver.ackno = some ⟨9⟩ := by decide +kernel
  rw [hnine] at hackno
  exact ⟨hack, Option.some.inj hackno⟩

end TCPConnection

end Sponge
