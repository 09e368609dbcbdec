import Sponge.Laws.Tcp.Connection

/-!
# Laws.Tcp.Calls — what a call does to the flags, to the receiver and to the wire

`Takes` says what the check of an arriving segment does to the connection's flags, and `Sends` what the
loop of `send_segs` does. A call is the one, the change of the sender and the receiver, and the other. What
the rest of the development needs of it is stated for every `Call`: how the receiver moves, what is put on
the wire, how the FIN flags hang together (`Flags`), and when one of them can be set.
-/

namespace Sponge

open Word64 (add)

namespace TCPSender

variable {s : TCPSender}

theorem Marked.fillWindow_isEnd (h : s.Marked) : s.fillWindow.stream.isEnd = s.stream.isEnd := by
  obtain ⟨new, -, -, hsame⟩ := fillLoop_rule
    (P := fun _ t => t.FinLast ∧ t.stream.isEnd = s.stream.isEnd) (fun _ _ h => h.1)
    (fun _ _ _ _ h _ hsend => ⟨send_finLast hsend, h.2⟩) (s.fillBound + 1) [] ⟨h.finLast, rfl⟩
  exact hsame

theorem Marked.answer_isEnd (h : s.Marked) (seg : TCPSegment) :
    (s.answer seg).stream.isEnd = s.stream.isEnd := by
  unfold TCPSender.answer
  split
  · rw [ackReceived_eq]
    split
    · rfl
    · exact (h.acceptAck _ seg.header.win).fillWindow_isEnd
  · split
    · exact h.fillWindow_isEnd
    · rfl

end TCPSender

namespace TCPConnection

variable {c c' c'' : TCPConnection} {seg : TCPSegment} {op : Op}

/-! ## Sending -/

/-- What sending a list of segments does to a connection and its flags. -/
structure Sends (queue : List TCPSegment) (c c' : TCPConnection) : Prop where
  checked : Checked (queue.map c.fillSegFields) c c'
  selfFinAcked : c'.selfFinAcked = c.selfFinAcked
  peerFinSeqno : c'.peerFinSeqno = c.peerFinSeqno
  firstReceiveFin : c'.firstReceiveFin = c.firstReceiveFin
  linger : c'.lingerAfterStreamsFinish = c.lingerAfterStreamsFinish
  selfFinSeqno : c'.selfFinSeqno = c.selfFinSeqno ∧ (∀ seg ∈ queue, seg.header.fin = false) ∨
    ∃ seg ∈ queue, seg.header.fin = true ∧ c'.selfFinSeqno =
      add (c.unwrapInConnectionSender seg.header.seqno) seg.lengthInSequenceSpace
  firstSendFin : c'.firstSendFin =
    (c.firstSendFin || queue.any (·.header.fin) && !c.firstReceiveFin)
  peerFinAcking : c'.peerFinAcking = true → c.peerFinAcking = true ∨ 0 < c.peerFinSeqno ∧
    ∃ seg ∈ queue, (c.fillSegFields seg).header.ack = true ∧
      c.peerFinSeqno ≤ c.unwrapInConnectionReceiver (c.fillSegFields seg).header.ackno
  lingering : c.lingering = true → c'.lingering = true
  lingers : c'.selfFinAcked = true → c'.peerFinAcking = true → c'.lingerAfterStreamsFinish = true →
    c'.lingering = true ∨ c.peerFinAcking = true ∧ c'.lingering = c.lingering

theorem Sends.refl (c : TCPConnection) : Sends [] c c where
  checked := .refl c
  selfFinAcked := rfl
  peerFinSeqno := rfl
  firstReceiveFin := rfl
  linger := rfl
  selfFinSeqno := .inl ⟨rfl, fun _ hseg => absurd hseg List.not_mem_nil⟩
  firstSendFin := (Bool.or_false _).symm
  peerFinAcking := .inl
  lingering := id
  lingers := fun _ hacking _ => .inr ⟨hacking, rfl⟩

theorem Sends.trans {queue queue' : List TCPSegment} (h : Sends queue c c')
    (h' : Sends queue' c' c'') : Sends (queue ++ queue') c c'' := by
  have hflagged := flagged_of_or h.checked.receiver
  have hfill := fillSegFields_congr hflagged
  have hsender : c'.unwrapInConnectionSender = c.unwrapInConnectionSender := by
    unfold unwrapInConnectionSender
    rw [h.checked.sender]
  have hreceiver : c'.unwrapInConnectionReceiver = c.unwrapInConnectionReceiver := by
    obtain ⟨-, -, hack, -, hisn, -⟩ := hflagged.same
    unfold unwrapInConnectionReceiver
    rw [hack, hisn]
  refine ⟨?_, h'.selfFinAcked.trans h.selfFinAcked, h'.peerFinSeqno.trans h.peerFinSeqno,
    h'.firstReceiveFin.trans h.firstReceiveFin, h'.linger.trans h.linger, ?_, ?_, fun hacking => ?_,
    fun hl => h'.lingering (h.lingering hl), fun hacked hacking hlinger => ?_⟩
  · rw [List.map_append, ← hfill]
    have hfirst := h.checked
    rw [← hfill] at hfirst
    exact hfirst.trans h'.checked
  · rcases h'.selfFinSeqno with ⟨hsame', hnone'⟩ | ⟨seg, hseg, hfin, heq⟩
    · rcases h.selfFinSeqno with ⟨hsame, hnone⟩ | ⟨seg, hseg, hfin, heq⟩
      · exact .inl ⟨hsame'.trans hsame, List.forall_mem_append.mpr ⟨hnone, hnone'⟩⟩
      · exact .inr ⟨seg, List.mem_append_left _ hseg, hfin, hsame'.trans heq⟩
    · exact .inr ⟨seg, List.mem_append_right _ hseg, hfin, hsender ▸ heq⟩
  · rw [h'.firstSendFin, h.firstSendFin, h.firstReceiveFin, List.any_append, Bool.or_assoc,
      ← Bool.and_or_distrib_right]
  · rcases h'.peerFinAcking hacking with hold | ⟨hpos, seg, hseg, hack, hle⟩
    · exact (h.peerFinAcking hold).imp_right fun ⟨hpos, seg, hseg, hack, hle⟩ =>
        ⟨hpos, seg, List.mem_append_left _ hseg, hack, hle⟩
    · rw [hfill, hreceiver, h.peerFinSeqno] at *
      exact .inr ⟨hpos, seg, List.mem_append_right _ hseg, hack, hle⟩
  · rcases h'.lingers hacked hacking hlinger with hlingers | ⟨hbefore, hsame⟩
    · exact .inl hlingers
    · rw [h'.selfFinAcked] at hacked
      rw [h'.linger] at hlinger
      rw [hsame]
      exact h.lingers hacked hbefore hlinger

theorem Sound.sends_sendSeg (h : c.Sound) (known : seg.header.fin = true → c.sender.finSent = true) :
    Sends [seg] c (c.sendSeg seg) := by
  obtain ⟨hchecked, -⟩ := h.sendSeg known
  obtain ⟨win, ack, ackno, hfill⟩ := c.fillSegFields_eq seg
  have hfin : (c.fillSegFields seg).header.fin = seg.header.fin := by rw [hfill]
  have hstop : add (c.unwrapInConnectionSender (c.fillSegFields seg).header.seqno)
        (c.fillSegFields seg).lengthInSequenceSpace =
      add (c.unwrapInConnectionSender seg.header.seqno) seg.lengthInSequenceSpace := by
    rw [hfill]
    rfl
  have hself : (if seg.header.fin then
          add (c.unwrapInConnectionSender seg.header.seqno) seg.lengthInSequenceSpace
        else c.selfFinSeqno) = c.selfFinSeqno ∧ (∀ q ∈ [seg], q.header.fin = false) ∨
      ∃ q ∈ [seg], q.header.fin = true ∧ (if seg.header.fin then
          add (c.unwrapInConnectionSender seg.header.seqno) seg.lengthInSequenceSpace
        else c.selfFinSeqno) =
          add (c.unwrapInConnectionSender q.header.seqno) q.lengthInSequenceSpace := by
    split
    next hflag => exact .inr ⟨seg, List.mem_singleton_self seg, hflag, rfl⟩
    next hflag =>
      exact .inl ⟨rfl, fun q hq => List.mem_singleton.mp hq ▸ eq_false_of_ne_true hflag⟩
  have hsend : c.sendSeg seg =
      let checked := (c.noteSelfFin (c.fillSegFields seg)).noteFinAcking (c.fillSegFields seg)
      { checked with segmentsOut := checked.segmentsOut ++ [c.fillSegFields seg] } := rfl
  rw [noteSelfFin_frame, hfin, hstop] at hsend
  have hany : (c.firstSendFin || seg.header.fin && !c.firstReceiveFin) =
      (c.firstSendFin || [seg].any (·.header.fin) && !c.firstReceiveFin) := by simp
  generalize (if seg.header.fin then
    add (c.unwrapInConnectionSender seg.header.seqno) seg.lengthInSequenceSpace
      else c.selfFinSeqno) = selfFinSeqno at hsend hself
  rcases noteFinAcking_cases _ (c.fillSegFields seg) with heq | ⟨hacks, heq⟩
  · rw [heq] at hsend
    rw [hsend] at hchecked ⊢
    exact ⟨hchecked, rfl, rfl, rfl, rfl, hself, hany, .inl, id, fun _ hacking _ =>
      .inr ⟨hacking, rfl⟩⟩
  · have hlinger := checkLinger_lingering
      { c with firstSendFin := c.firstSendFin || seg.header.fin && !c.firstReceiveFin
               selfFinSeqno, peerFinAcking := true }
    rw [heq, checkLinger_frame] at hsend
    dsimp only at hsend hlinger
    rw [Bool.and_true] at hlinger
    rw [hsend] at hchecked ⊢
    refine ⟨hchecked, rfl, rfl, rfl, rfl, hself, hany, fun _ => .inr ⟨hacks.1, seg,
      List.mem_singleton_self seg, hacks.2⟩, fun hl => ?_, fun hacked _ hdue => .inl ?_⟩
    · dsimp only
      rw [hlinger, hl, Bool.true_or]
    · dsimp only at hacked hdue ⊢
      rw [hlinger, hacked, hdue, Bool.and_true, Bool.or_true]

/-- **What the loop of `send_segs` does.** -/
theorem Sound.sends (h : c.Sound) {queue : List TCPSegment}
    (known : ∀ seg ∈ queue, seg.header.fin = true → c.sender.finSent = true) :
    Sends queue c (queue.foldl TCPConnection.sendSeg c) := by
  induction queue generalizing c with
  | nil => exact .refl c
  | cons seg queue ih =>
    obtain ⟨hhead, hrest⟩ := List.forall_mem_cons.mp known
    have hone := h.sends_sendSeg hhead
    exact hone.trans (ih (h.sendSeg hhead).2 (hone.checked.sender ▸ hrest))

/-- What `send_segs` does, in terms of its loop. -/
theorem Sound.sendSegs_eq (h : c.Sound) : ∃ sent, Sends c.sender.segmentsOut c sent ∧
    c.sendSegs = { sent with sender := c.sender.drained } := by
  have hsends := h.sends fun seg hseg => h.marked.marked seg (.inr hseg)
  refine ⟨_, hsends, ?_⟩
  unfold TCPConnection.sendSegs
  dsimp only
  rw [hsends.checked.sender]

/-! ## Receiving -/

/-- What the check of an arriving segment does to a connection and its flags. -/
structure Takes (seg : TCPSegment) (c c' : TCPConnection) : Prop where
  checked : Checked [] c c'
  unmarked : c.sender.finSent = false → c'.receiver = c.receiver
  selfFinSeqno : c'.selfFinSeqno = c.selfFinSeqno
  peerFinAcking : c'.peerFinAcking = c.peerFinAcking
  firstSendFin : c'.firstSendFin = c.firstSendFin
  firstReceiveFin : c'.firstReceiveFin =
    (c.firstReceiveFin || seg.header.fin && !c.firstSendFin)
  linger : c'.lingerAfterStreamsFinish =
    (c.lingerAfterStreamsFinish && (!seg.header.fin || c.firstSendFin))
  peerFinSeqno : c'.peerFinSeqno = if seg.header.fin then
      add (c.unwrapInConnectionReceiver seg.header.seqno) seg.lengthInSequenceSpace
    else c.peerFinSeqno
  selfFinAcked : c'.selfFinAcked = true → c.selfFinAcked = true ∨
    0 < c.selfFinSeqno ∧ seg.header.ack = true ∧
      c.selfFinSeqno ≤ c.unwrapInConnectionSender seg.header.ackno
  lingers : c'.selfFinAcked = true → c'.peerFinAcking = true → c'.lingerAfterStreamsFinish = true →
    c'.lingering = true ∨ c.selfFinAcked = true ∧ c'.lingering = c.lingering

theorem Sound.takes (h : c.Sound) (seg : TCPSegment) : Takes seg c (c.checkRcvFin seg) := by
  obtain ⟨hchecked, -⟩ := h.checkRcvFin seg
  have htake : c.checkRcvFin seg = (c.notePeerFin seg).noteFinAcked seg := rfl
  rw [notePeerFin_frame] at htake
  generalize hpeer : (if seg.header.fin then
    add (c.unwrapInConnectionReceiver seg.header.seqno) seg.lengthInSequenceSpace
      else c.peerFinSeqno) = peerFinSeqno at htake
  rcases noteFinAcked_cases _ seg with heq | ⟨hacks, heq⟩
  · rw [heq] at htake
    rw [htake] at hchecked ⊢
    exact ⟨hchecked, fun _ => rfl, rfl, rfl, rfl, rfl, rfl, hpeer.symm, .inl,
      fun hacked _ _ => .inr ⟨hacked, rfl⟩⟩
  · have hlinger := checkLinger_lingering
      { c with firstReceiveFin := c.firstReceiveFin || seg.header.fin && !c.firstSendFin
               lingerAfterStreamsFinish :=
                 c.lingerAfterStreamsFinish && (!seg.header.fin || c.firstSendFin)
               peerFinSeqno, selfFinAcked := true }
    rw [heq, checkLinger_frame] at htake
    dsimp only at htake hlinger
    rw [Bool.true_and] at hlinger
    rw [htake] at hchecked ⊢
    refine ⟨hchecked, fun hunsent => ?_, rfl, rfl, rfl, rfl, rfl, hpeer.symm, fun _ => .inr hacks,
      fun _ hacking hdue => .inl ?_⟩
    · rw [h.numbered hacks.1] at hunsent
      cases hunsent
    · dsimp only at hacking hdue ⊢
      rw [hlinger, hacking, hdue, Bool.and_true, Bool.or_true]

/-- What handling a segment does, in terms of its check. -/
theorem Sound.handle_eq (h : c.Sound) (seg : TCPSegment) : ∃ checked asked, Takes seg c checked ∧
    c.handle seg = { checked with
      receiver := checked.receiver.segmentReceived seg
      sender := (c.sender.answer seg).acknowledge asked
      newestSegTime := 0 } := by
  have htakes := h.takes seg
  refine ⟨c.checkRcvFin seg, ((c.checkRcvFin seg).receiver.segmentReceived seg).asksForAck seg, htakes,
    ?_⟩
  unfold TCPConnection.handle
  dsimp only
  rw [htakes.checked.sender]

/-! ## The wire -/

/-- What a call puts on the wire. -/
def Wired (queue : List TCPSegment) (c c' : TCPConnection) : Prop :=
  c'.segmentsOut = c.segmentsOut ++ queue.map c'.fillSegFields ∨
    c'.segmentsOut = c.segmentsOut ++ [rstSegment]

/-- What is on the wire behind a call was there before, or is a reset, or is filled in from the receiver
the call leaves. -/
theorem Wired.cases (h : Wired queue c c') {seg : TCPSegment} (sent : seg ∈ c'.segmentsOut) :
    seg ∈ c.segmentsOut ∨ seg = rstSegment ∨ ∃ queued ∈ queue, seg = c'.fillSegFields queued := by
  rcases h with heq | heq
  · rw [heq, List.mem_append, List.mem_map] at sent
    exact sent.imp_right fun ⟨queued, hmem, hfill⟩ => .inr ⟨queued, hmem, hfill.symm⟩
  · rw [heq, List.mem_append, List.mem_singleton] at sent
    exact sent.imp_right .inl

theorem Wired.mem (h : Wired queue c c') {seg : TCPSegment} (sent : seg ∈ c.segmentsOut) :
    seg ∈ c'.segmentsOut := by
  rcases h with heq | heq
  · rw [heq]
    exact List.mem_append_left _ sent
  · rw [heq]
    exact List.mem_append_left _ sent

theorem Sound.turn_frame (h : c.Sound) (turn : Turn c op c') :
    c'.cfg = c.cfg ∧ c'.segmentsOut = c.segmentsOut ∧ c'.rst = c.rst := by
  cases turn with
  | handle seg kept =>
    obtain ⟨checked, asked, htakes, heq⟩ := h.handle_eq seg
    rw [heq]
    exact ⟨htakes.checked.cfg, by rw [htakes.checked.segmentsOut, List.append_nil], htakes.checked.rst⟩
  | _ => exact ⟨rfl, rfl, rfl⟩

/-- What `send_segs` sends behind a stage. -/
theorem Sound.wired_turn (h : c.Sound) (turn : Turn c op c') :
    Wired c'.sender.segmentsOut c c'.sendSegs := by
  obtain ⟨hdrained, -⟩ := (h.turn turn).sendSegs
  left
  rw [hdrained.segmentsOut, (h.turn_frame turn).2.1,
    fillSegFields_congr (flagged_of_or hdrained.receiver)]

theorem Ready.wired (h : c.Ready) (call : Call c op c') : ∃ queue, Wired queue c c' := by
  cases call with
  | turn turn => exact ⟨_, h.sound.wired_turn turn⟩
  | giveUp ms many => exact ⟨[], .inr rfl⟩
  | reset seg rst => exact ⟨[], .inl rfl⟩
  | read len => exact ⟨[], .inl (List.append_nil _).symm⟩
  | idle data none => exact ⟨[], .inl (List.append_nil _).symm⟩

/-! ## The receiver -/

/-- What an operation does to a receiver. -/
def receives (r : TCPReceiver) : Op → TCPReceiver
  | .segmentReceived seg => if seg.header.rst then r else r.segmentReceived seg
  | .read len => r.popOutput len
  | _ => r

/-- What a call does to the receiver. Before the own FIN is sent, nothing marks it beforehand. -/
theorem Ready.receiver (h : c.Ready) (call : Call c op c') : ∃ r, c.receiver.Flagged r ∧
    (c.sender.finSent = false → r = c.receiver) ∧ (receives r op).Flagged c'.receiver := by
  cases call with
  | turn turn =>
    have hsent := flagged_of_or ((h.sound.turn turn).sendSegs).1.receiver
    cases turn with
    | expire ms lingering due =>
      exact ⟨c.receiver, .refl _, fun _ => rfl, (TCPReceiver.flagged_endInput _).trans hsent⟩
    | handle seg kept =>
      obtain ⟨checked, asked, htakes, hhandle⟩ := h.sound.handle_eq seg
      rw [hhandle] at hsent ⊢
      refine ⟨checked.receiver, flagged_of_or htakes.checked.receiver, htakes.unmarked, ?_⟩
      unfold receives
      dsimp only
      rw [if_neg (by rw [kept]; exact Bool.false_ne_true)]
      exact hsent
    | _ => exact ⟨c.receiver, .refl _, fun _ => rfl, hsent⟩
  | giveUp ms many => exact ⟨c.receiver, .refl _, fun _ => rfl, TCPReceiver.flagged_setError _⟩
  | reset seg rst =>
    refine ⟨c.receiver, .refl _, fun _ => rfl, ?_⟩
    unfold receives
    dsimp only
    rw [if_pos rst]
    exact TCPReceiver.flagged_setError _
  | read len => exact ⟨c.receiver, .refl _, fun _ => rfl, .refl _⟩
  | idle data none => exact ⟨c.receiver, .refl _, fun _ => rfl, .refl _⟩

/-- What a call does, seen from outside: the receiver receives, perhaps after its stream was marked as
ended, and what is sent is filled in from the receiver as it is then. -/
structure Stepped (c : TCPConnection) (op : Op) (c' : TCPConnection) : Prop where
  cfg : c'.cfg = c.cfg
  receiver : ∃ r, c.receiver.Flagged r ∧ (receives r op).Flagged c'.receiver
  segmentsOut : ∃ new, c'.segmentsOut = c.segmentsOut ++ new ∧
    ∀ seg ∈ new, seg = rstSegment ∨ ∃ queued, seg = c'.fillSegFields queued

theorem Ready.stepped (h : c.Ready) (call : Call c op c') : Stepped c op c' := by
  refine ⟨?_, ?_, ?_⟩
  · cases call with
    | turn turn =>
      obtain ⟨hdrained, -⟩ := (h.sound.turn turn).sendSegs
      exact hdrained.cfg.trans (h.sound.turn_frame turn).1
    | _ => rfl
  · obtain ⟨r, hbefore, -, hafter⟩ := h.receiver call
    exact ⟨r, hbefore, hafter⟩
  · obtain ⟨queue, hout | hout⟩ := h.wired call
    · refine ⟨_, hout, fun seg hseg => .inr ?_⟩
      obtain ⟨queued, -, hfill⟩ := List.mem_map.mp hseg
      exact ⟨queued, hfill.symm⟩
    · exact ⟨_, hout, fun seg hseg => .inl (List.mem_singleton.mp hseg)⟩

/-! ## The flags -/

variable {queue : List TCPSegment} {lingered : Bool}

/-- Whether a FIN arrives with an operation. -/
def finArrives : Op → Bool
  | .segmentReceived seg => !seg.header.rst && seg.header.fin
  | _ => false

/-- Whether a call finds the connection lingering, and the time up. -/
def lingersOut (c : TCPConnection) : Op → Bool
  | .tick ms => c.lingering && decide (10 * c.cfg.rtTimeout.toNat ≤ (c.pass ms).newestSegTime)
  | _ => false

/-- How the flags hang together: a FIN that was sent went first or came second, only a FIN that came first
makes lingering unnecessary, and a connection that is to linger does. -/
structure Flags (lingered : Bool) (c : TCPConnection) : Prop where
  order : 0 < c.selfFinSeqno → c.firstSendFin = true ∨ c.firstReceiveFin = true
  dropped : c.lingerAfterStreamsFinish = false → c.firstReceiveFin = true ∨ c.rst = true
  lingers : c.selfFinAcked = true → c.peerFinAcking = true → c.lingerAfterStreamsFinish = true →
    c.lingering = true ∨ lingered = true

theorem flags_new (cfg : TCPConfig) : Flags false (TCPConnection.new cfg) :=
  ⟨fun h => absurd h (Nat.lt_irrefl 0), nofun, nofun⟩

theorem Flags.mono (h : Flags lingered c) (more : Bool) : Flags (lingered || more) c := by
  refine ⟨h.order, h.dropped, fun hacked hacking hdue => (h.lingers hacked hacking hdue).imp_right ?_⟩
  intro hbefore
  rw [hbefore, Bool.true_or]

theorem Flags.takes (h : Flags lingered c) {seg : TCPSegment} (takes : Takes seg c c') :
    Flags lingered c' := by
  refine ⟨fun hpos => ?_, fun hdropped => ?_, fun hacked hacking hdue => ?_⟩
  · rw [takes.selfFinSeqno] at hpos
    rw [takes.firstSendFin, takes.firstReceiveFin]
    exact (h.order hpos).imp_right fun hbefore => by rw [hbefore, Bool.true_or]
  · rw [takes.linger] at hdropped
    rw [takes.firstReceiveFin, takes.checked.rst]
    cases hbefore : c.lingerAfterStreamsFinish with
    | false => exact (h.dropped hbefore).imp_left fun hfirst => by rw [hfirst, Bool.true_or]
    | true =>
      -- the FIN that arrives is the first of the two
      left
      rw [hbefore, Bool.true_and, Bool.or_eq_false_iff, Bool.not_eq_false'] at hdropped
      rw [hdropped.1, hdropped.2, Bool.not_false, Bool.and_true, Bool.or_true]
  · rcases takes.lingers hacked hacking hdue with hlinger | ⟨hbefore, hsame⟩
    · exact .inl hlinger
    · rw [takes.peerFinAcking] at hacking
      rw [takes.linger, Bool.and_eq_true] at hdue
      rw [hsame]
      exact h.lingers hbefore hacking hdue.1

theorem Flags.sends (h : Flags lingered c) (sends : Sends queue c c') : Flags lingered c' := by
  refine ⟨fun hpos => ?_, fun hdropped => ?_, fun hacked hacking hdue => ?_⟩
  · rw [sends.firstSendFin, sends.firstReceiveFin]
    rcases sends.selfFinSeqno with ⟨hsame, -⟩ | ⟨seg, hseg, hfin, -⟩
    · exact (h.order (hsame ▸ hpos)).imp_left fun hbefore => by rw [hbefore, Bool.true_or]
    · have hany : queue.any (·.header.fin) = true := List.any_eq_true.mpr ⟨seg, hseg, hfin⟩
      rw [hany, Bool.true_and]
      cases c.firstReceiveFin with
      | true => exact .inr rfl
      | false => exact .inl (Bool.or_true _)
  · rw [sends.firstReceiveFin, sends.checked.rst]
    exact h.dropped (sends.linger.symm.trans hdropped)
  · rcases sends.lingers hacked hacking hdue with hlinger | ⟨hbefore, hsame⟩
    · exact .inl hlinger
    · rw [hsame]
      exact h.lingers (sends.selfFinAcked.symm.trans hacked) hbefore (sends.linger.symm.trans hdue)

theorem Flags.turn (h : Flags lingered c) (sound : c.Sound) (turn : Turn c op c') :
    Flags (lingered || lingersOut c op) c' := by
  cases turn with
  | expire ms lingering due =>
    have hout : lingersOut c (.tick ms) = true := by
      rw [lingersOut, lingering, Bool.true_and]
      exact decide_eq_true due
    rw [hout, Bool.or_true]
    exact ⟨h.order, h.dropped, fun _ _ _ => .inr rfl⟩
  | handle seg kept =>
    obtain ⟨checked, asked, htakes, heq⟩ := sound.handle_eq seg
    rw [heq]
    have htaken := (h.takes htakes).mono (lingersOut c (.segmentReceived seg))
    exact ⟨htaken.order, htaken.dropped, htaken.lingers⟩
  | _ => exact ⟨h.order, h.dropped, (h.mono _).lingers⟩

/-- **Every call keeps the flags together.** -/
theorem Flags.call (h : Flags lingered c) (ready : c.Ready) (call : Call c op c') :
    Flags (lingered || lingersOut c op) c' := by
  cases call with
  | turn turn =>
    obtain ⟨sent, hsends, hsent⟩ := (ready.sound.turn turn).sendSegs_eq
    have hflags := (h.turn ready.sound turn).sends hsends
    rw [hsent]
    exact ⟨hflags.order, hflags.dropped, hflags.lingers⟩
  | giveUp ms many => exact ⟨h.order, fun _ => .inr rfl, fun _ _ hdue => absurd hdue Bool.false_ne_true⟩
  | reset seg rst => exact ⟨h.order, fun _ => .inr rfl, fun _ _ hdue => absurd hdue Bool.false_ne_true⟩
  | read len => exact ⟨h.order, h.dropped, (h.mono _).lingers⟩
  | idle data none => exact h.mono _

/-- A FIN that arrives is the first, unless the own one was. -/
theorem Ready.firstReceiveFin (h : c.Ready) (call : Call c op c') :
    c'.firstReceiveFin = (c.firstReceiveFin || finArrives op && !c.firstSendFin) := by
  cases call with
  | turn turn =>
    obtain ⟨sent, hsends, hsent⟩ := (h.sound.turn turn).sendSegs_eq
    rw [hsent]
    refine hsends.firstReceiveFin.trans ?_
    cases turn with
    | handle seg kept =>
      obtain ⟨checked, asked, htakes, hhandle⟩ := h.sound.handle_eq seg
      rw [hhandle, finArrives, kept, Bool.not_false, Bool.true_and]
      exact htakes.firstReceiveFin
    | _ => exact (Bool.or_false _).symm
  | reset seg rst =>
    rw [finArrives, rst, Bool.not_true, Bool.false_and, Bool.false_and, Bool.or_false]
    rfl
  | _ => exact (Bool.or_false _).symm

/-- The own FIN becomes acknowledged by a segment that covers it. -/
theorem Ready.selfFinAcked (h : c.Ready) (call : Call c op c') (acked : c'.selfFinAcked = true) :
    c.selfFinAcked = true ∨ ∃ seg, op = .segmentReceived seg ∧ 0 < c.selfFinSeqno ∧
      seg.header.ack = true ∧ c.selfFinSeqno ≤ c.unwrapInConnectionSender seg.header.ackno := by
  cases call with
  | turn turn =>
    obtain ⟨sent, hsends, hsent⟩ := (h.sound.turn turn).sendSegs_eq
    rw [hsent] at acked
    have hbefore := hsends.selfFinAcked.symm.trans acked
    cases turn with
    | handle seg kept =>
      obtain ⟨checked, asked, htakes, hhandle⟩ := h.sound.handle_eq seg
      rw [hhandle] at hbefore
      exact (htakes.selfFinAcked hbefore).imp_right fun hcovers => ⟨seg, rfl, hcovers⟩
    | _ => exact .inl hbefore
  | _ => exact .inl acked

/-- Whether an operation ends the outbound stream. -/
def endsInput : Op → Bool
  | .endInputStream => true
  | _ => false

/-- Only the owner ends the outbound stream. -/
theorem Sound.turn_isEnd (h : c.Sound) (turn : Turn c op c') (ended : c'.sender.stream.isEnd = true) :
    c.sender.stream.isEnd = true ∨ endsInput op = true := by
  cases turn with
  | connect => exact .inl (h.marked.fillWindow_isEnd.symm.trans ended)
  | write data =>
    have hsame : (c.sender.write data).fillWindow.stream.isEnd = c.sender.stream.isEnd :=
      (h.marked.write data).fillWindow_isEnd.trans (ByteStream.write_isEnd _ data)
    exact .inl (hsame.symm.trans ended)
  | endInputStream => exact .inr rfl
  | tick ms alone =>
    dsimp only at ended
    rw [TCPSender.tick_frame] at ended
    exact .inl ended
  | handle seg kept =>
    rw [(h.handle seg).2.1, TCPSender.acknowledge_frame] at ended
    exact .inl ((h.marked.answer_isEnd seg).symm.trans ended)
  | _ => exact .inl ended

/-- A FIN is sent only behind the end of the outbound stream. -/
theorem Ready.finSent (h : c.Ready) (call : Call c op c') (fin : c'.sender.finSent = true) :
    c.sender.stream.isEnd = true ∨ endsInput op = true := by
  have hended := (h.call call).sound.marked.ended fin
  cases call with
  | turn turn =>
    rw [((h.sound.turn turn).sendSegs).1.sender] at hended
    exact h.sound.turn_isEnd turn hended
  | _ => exact .inl hended

/-- A FIN is received when it arrives. -/
theorem receives_receivedFin (r : TCPReceiver) (op : Op) :
    (receives r op).receivedFin = (r.receivedFin || finArrives op) := by
  cases op with
  | segmentReceived seg =>
    unfold receives finArrives
    dsimp only
    cases seg.header.rst with
    | true => exact (Bool.or_false _).symm
    | false => exact r.segmentReceived_receivedFin seg
  | _ => exact (Bool.or_false _).symm

end TCPConnection

end Sponge
