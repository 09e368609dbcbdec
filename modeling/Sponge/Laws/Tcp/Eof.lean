import Sponge.Laws.Tcp.Duplex

/-!
# Laws.Tcp.Eof — the end of the stream between two connections

The inbound stream of a connection is ended in four places: by the reassembler when it has written up to
the end index, by the receiver when it has acknowledged the FIN, by the connection when both FINs are
acknowledged and it need not linger, and by the connection when it has lingered long enough. Between two
connections each of them happens only when everything is there (`Ending`), as long as no FIN segment is cut
at the edge of the window (`Uncut`).

The last two rest on the connection's own flag that it acknowledges the peer's FIN. That the flag is right
is `Closing`, for regular segments; between two connections with receive buffers of at most `2 ^ 29` bytes
every segment is regular (`Way.regular`).
-/

namespace Sponge

/-! ## The receiver -/

namespace TCPReceiver

variable {S : Bytes} {isn : WrappingInt32} {r r' : TCPReceiver} {seg : TCPSegment} {i : Nat}

/-- The whole stream is written, and the FIN is in. -/
def Complete (S : Bytes) (r : TCPReceiver) : Prop :=
  r.receivedFin = true ∧ r.streamOut.totalBytesWritten = S.length

/-- A receiver in step with `S` whose stream ends with `S`, behind the FIN. -/
structure Ending (S : Bytes) (isn : WrappingInt32) (r : TCPReceiver) : Prop where
  sound : Reception.Sound S isn r
  noted : r.reassembler.eofIndex = 2 ^ 64 - 1 ∨ r.receivedFin = true
  ended : r.streamOut.isEnd = true → r.receivedFin = true

theorem ending_new (S : Bytes) (isn : WrappingInt32) (capacity : Nat) : Ending S isn (new capacity) :=
  ⟨Reception.sound_new S isn capacity, .inl rfl, nofun⟩

/-- What is marked as ended by its owner, when it is complete. -/
theorem Ending.endInput (h : Ending S isn r) (complete : r.Complete S) : Ending S isn r.endInput := by
  obtain ⟨⟨hphase, hends⟩, hnoted, hended⟩ := h
  refine ⟨⟨hphase.imp (·.flagged (flagged_endInput r)) (·.flagged (flagged_endInput r)), hends.noted,
    fun _ => complete.2⟩, hnoted, fun _ => complete.1⟩

theorem Ending.setError (h : Ending S isn r) : Ending S isn r.setError := by
  obtain ⟨⟨hphase, hends⟩, hnoted, hended⟩ := h
  exact ⟨⟨hphase.imp (·.flagged (flagged_setError r)) (·.flagged (flagged_setError r)), hends.noted,
    hends.ended⟩, hnoted, hended⟩

theorem Ending.popOutput (h : Ending S isn r) (len : Nat) : Ending S isn (r.popOutput len) :=
  ⟨h.sound.popOutput len, h.noted, h.ended⟩

/-- The stream may grow before the FIN. -/
theorem Ending.extend (h : Ending S isn r) {T : Bytes} (still : r.receivedFin = true → T = []) :
    Ending (S ++ T) isn r := by
  obtain ⟨⟨hphase, hends⟩, hnoted, hended⟩ := h
  refine ⟨⟨hphase.imp (·.extend T) (·.extend still), ?_, fun hend => ?_⟩, hnoted, hended⟩
  · rcases hnoted with hnone | hfin
    · exact .inr hnone
    · rw [still hfin, List.append_nil]
      exact hends.noted
  · rw [still (hended hend), List.append_nil]
    exact hends.ended hend

/-- The end index is set with the FIN, and the payload stage ends the output only there. -/
theorem acceptPayload_marks (started : Started S isn r) (carved : Carved S isn i seg)
    (short : S.length < 2 ^ 30) (noted : r.reassembler.eofIndex = 2 ^ 64 - 1 ∨ r.receivedFin = true)
    (ended : r.streamOut.isEnd = true → r.receivedFin = true) :
    ((r.acceptPayload seg).reassembler.eofIndex = 2 ^ 64 - 1 ∨
        r.receivedFin = true ∨ seg.header.fin = true) ∧
      ((r.acceptPayload seg).streamOut.isEnd = true →
        r.receivedFin = true ∨ seg.header.fin = true) := by
  rcases acceptPayload_cases started carved short with ⟨-, heq⟩ | ⟨-, heq⟩
  · rw [heq]
    exact ⟨noted.imp_right .inl, fun hend => .inl (ended hend)⟩
  · have hsafe := push_safe started carved short
    have heof := r.reassembler.pushSubstring_eofIndex (r.cutToWindow seg) i seg.header.fin
    have hend := r.reassembler.pushSubstring_isEnd (r.cutToWindow seg) i seg.header.fin
    rw [heq, streamOut, advance_reassembler]
    generalize r.reassembler.pushSubstring (r.cutToWindow seg) i seg.header.fin = pushed at *
    have hnoted : pushed.eofIndex = 2 ^ 64 - 1 ∨ r.receivedFin = true ∨ seg.header.fin = true := by
      cases hflag : seg.header.fin with
      | true => exact .inr (.inr rfl)
      | false =>
        rw [hflag, if_neg Bool.false_ne_true] at heof
        exact noted.imp (heof.trans ·) .inl
    refine ⟨hnoted, fun hended => ?_⟩
    rcases hend.mp hended with hold | ⟨hdrained, hmeet⟩
    · exact .inl (ended hold)
    · -- the unset end index is beyond every stream
      refine hnoted.resolve_left fun hnone => ?_
      have hexpect := hsafe.expect
      have hwithin := hsafe.output.within
      rw [hnone] at hmeet
      omega

/-- **A segment of the stream keeps the end honest**, unless it brings the FIN and is cut. -/
theorem Ending.segmentReceived (h : Ending S isn r) (carved : Carved S isn i seg)
    (first : r.receivedSyn = false → seg.header.syn = true)
    (uncut : seg.header.fin = true → seg.payload.str ≠ [] →
      (r.acceptSyn seg).cutToWindow seg = seg.payload.str)
    (short : S.length < 2 ^ 30) : Ending S isn (r.segmentReceived seg) := by
  have hstarted : Started S isn (r.acceptSyn seg) :=
    acceptSyn_keeps (h.sound.1.imp_left fun hf => ⟨hf, first hf.noSyn⟩) carved
  have hfin := r.segmentReceived_receivedFin seg
  have hmarks := acceptPayload_marks hstarted carved short
    (by rw [acceptSyn_reassembler, acceptSyn_receivedFin]; exact h.noted)
    (by rw [streamOut, acceptSyn_reassembler, acceptSyn_receivedFin]; exact h.ended)
  rw [acceptSyn_receivedFin] at hmarks
  refine ⟨h.sound.segment_uncut carved first uncut short, ?_, fun hend => ?_⟩
  · rw [hfin, Bool.or_eq_true]
    rw [TCPReceiver.segmentReceived, endStream_frame, consumeFin_reassembler, noteFin_reassembler]
    exact hmarks.1
  · rw [hfin, Bool.or_eq_true]
    rw [TCPReceiver.segmentReceived, TCPReceiver.endStream] at hend
    split at hend
    next hcaught =>
      have hcaught := hcaught.2
      rw [consumeFin_frame] at hcaught
      dsimp only at hcaught
      rw [noteFin_receivedFin, acceptPayload_receivedFin, acceptSyn_receivedFin, Bool.or_eq_true] at hcaught
      exact hcaught
    next =>
      rw [streamOut, consumeFin_reassembler, noteFin_reassembler] at hend
      exact hmarks.2 hend

/-- A segment that carries nothing ends nothing. -/
theorem Ending.blank (h : Ending S isn r) (blank : seg.lengthInSequenceSpace = 0)
    (short : S.length < 2 ^ 30) : Ending S isn (r.segmentReceived seg) := by
  rcases h.sound.1 with hfresh | hstarted
  · rw [hfresh.blank blank]
    exact h
  · obtain ⟨hpayload, hsyn, hnoFin⟩ := seg.blank_of_length blank
    obtain ⟨hafter, -⟩ := hstarted.blank blank short
    rw [TCPReceiver.segmentReceived, acceptSyn_of_noSyn r hsyn, acceptPayload_of_nil r hpayload] at hafter ⊢
    have hnote : r.noteFin seg = r := by rw [noteFin, hnoFin, if_neg Bool.false_ne_true]
    rw [hnote] at hafter ⊢
    have hconsumed := (consumeFin_started hstarted short).1
    have hends := Reception.endsWell_endStream
      (by rw [consumeFin_reassembler]; exact h.sound.2) hconsumed
    refine ⟨⟨.inr hafter, hends⟩, ?_, fun hend => ?_⟩
    · rw [endStream_frame, consumeFin_reassembler, consumeFin_frame]
      exact h.noted
    · rw [endStream_frame, consumeFin_frame]
      show r.receivedFin = true
      rw [TCPReceiver.endStream] at hend
      split at hend
      next hcaught =>
        rw [consumeFin_frame] at hcaught
        exact hcaught.2
      next =>
        rw [streamOut, consumeFin_reassembler] at hend
        exact h.ended hend

/-- What has acknowledged its FIN is complete. -/
theorem Assembled.complete_of_ending (h : r.Assembled) (ending : Ending S isn r) : r.Complete S := by
  rcases ending.sound.1 with hfresh | hstarted
  · have hsyn := h.syn
    rw [hfresh.noSyn] at hsyn
    cases hsyn
  · have hlast := hstarted.last h.fin
    have hacked := h.acked
    have hwithin := hstarted.safe.output.within
    refine ⟨h.fin, ?_⟩
    rcases hstarted.acked with hack | ⟨-, hall, -⟩
    · omega
    · exact hall

/-- A FIN carved from the stream can be placed. -/
theorem placed_of_carved (phase : Fresh S r ∧ seg.header.syn = true ∨ Started S isn r)
    (carved : Carved S isn i seg) (short : S.length < 2 ^ 30) (narrow : r.windowSize ≤ 2 ^ 29) :
    r.Placed seg := by
  have hbegun := acceptSyn_keeps phase carved
  have hwindow : (r.acceptSyn seg).windowSize = r.windowSize := by
    unfold windowSize streamOut
    rw [acceptSyn_capacity, acceptSyn_reassembler]
  have hacked := hbegun.ackNo64_le
  have hstop := carved.stop_le
  unfold Placed
  dsimp only
  rw [hbegun.isn_eq, carved.unwrap_seqno short hacked, rightEdge, hwindow]
  refine ⟨hbegun.syn, by omega, by omega, by omega, fun hfin hcaught => ?_⟩
  have hlast := hbegun.last hfin
  omega

/-- The cut does not depend on the marks. -/
theorem Flagged.cutToWindow (h : r.Flagged r') (seg : TCPSegment) :
    (r'.acceptSyn seg).cutToWindow seg = (r.acceptSyn seg).cutToWindow seg := by
  obtain ⟨-, hwindow, hack, -, hisn, -⟩ := (acceptSyn_flagged h seg).same
  unfold TCPReceiver.cutToWindow
  rw [hwindow, hack, hisn]

end TCPReceiver

/-! ## The connection -/

namespace TCPConnection

variable {c c' c'' : TCPConnection} {op : Op}

/-- What the checks do to the receiver: they end its stream only when the peer's FIN is acknowledged. -/
structure Settles (c c' : TCPConnection) : Prop where
  receiver : c'.receiver = c.receiver ∨ c'.peerFinAcking = true ∧ c'.receiver = c.receiver.endInput
  keeps : c.peerFinAcking = true → c'.peerFinAcking = true
  lingers : (c.lingering = true → c.peerFinAcking = true) →
    c'.lingering = true → c'.peerFinAcking = true

theorem Settles.refl (c : TCPConnection) : Settles c c := ⟨.inl rfl, id, id⟩

theorem Settles.trans (h : Settles c c') (h' : Settles c' c'') : Settles c c'' := by
  refine ⟨?_, fun hacking => h'.keeps (h.keeps hacking), fun hbefore => h'.lingers (h.lingers hbefore)⟩
  rcases h.receiver with hsame | ⟨hacking, hended⟩
  · rw [← hsame]
    exact h'.receiver
  · right
    refine ⟨h'.keeps hacking, ?_⟩
    rcases h'.receiver with hsame | ⟨-, hagain⟩
    · rw [hsame, hended]
    · rw [hagain, hended]
      rfl

theorem settles_checkLinger (c : TCPConnection) : Settles c c.checkLinger := by
  unfold checkLinger
  split
  next hboth =>
    split
    · exact ⟨.inl rfl, id, fun _ _ => hboth.2⟩
    · exact ⟨.inr ⟨hboth.2, rfl⟩, id, id⟩
  next => exact .refl c

theorem settles_sendSegs (c : TCPConnection) : Settles c c.sendSegs := by
  refine sendSegs_rule (P := Settles c) (fun d seg h => ?_) (fun d h => ?_)
    (fun _ _ _ h => ⟨h.receiver, h.keeps, h.lingers⟩) (.refl c)
  · rw [noteSelfFin_frame]
    exact ⟨h.receiver, h.keeps, h.lingers⟩
  · refine (h.trans ?_).trans (settles_checkLinger _)
    exact ⟨.inl rfl, fun _ => rfl, fun _ _ => rfl⟩

theorem settles_checkRcvFin (c : TCPConnection) (seg : TCPSegment) : Settles c (c.checkRcvFin seg) := by
  refine checkRcvFin_rule (P := Settles c) (fun d seg h => ?_) (fun d h => ?_) (.refl c) seg
  · rw [notePeerFin_frame]
    exact ⟨h.receiver, h.keeps, h.lingers⟩
  · refine (h.trans ?_).trans (settles_checkLinger _)
    exact ⟨.inl rfl, id, id⟩

/-- **How a call ends the inbound stream**: beside what the receiver does, only behind an acknowledgment of
the peer's FIN. -/
structure Marks (c : TCPConnection) (op : Op) (c' : TCPConnection) : Prop where
  receiver : ∃ r, (r = c.receiver ∨ c.peerFinAcking = true ∧ r = c.receiver.endInput) ∧
    (c'.receiver = receives r op ∨ c'.peerFinAcking = true ∧ c'.receiver = (receives r op).endInput ∨
      c'.receiver = (receives r op).setError)
  lingers : c'.lingering = true → c'.peerFinAcking = true

theorem Settles.marks {r : TCPReceiver} (settles : Settles c' c'')
    (before : r = c.receiver ∨ c.peerFinAcking = true ∧ r = c.receiver.endInput)
    (turned : c'.receiver = receives r op) (lingers : c'.lingering = true → c'.peerFinAcking = true) :
    Marks c op c'' := by
  refine ⟨⟨r, before, ?_⟩, settles.lingers lingers⟩
  rcases settles.receiver with hsame | hended
  · exact .inl (hsame.trans turned)
  · exact .inr (.inl ⟨hended.1, turned ▸ hended.2⟩)

theorem marks_call (lingers : c.lingering = true → c.peerFinAcking = true) (call : Call c op c') :
    Marks c op c' := by
  cases call with
  | turn turn =>
    rename_i turned
    have hsettles := settles_sendSegs turned
    cases turn with
    | expire ms lingering due =>
      exact hsettles.marks (.inr ⟨lingers lingering, rfl⟩) rfl fun hc => absurd hc Bool.false_ne_true
    | handle seg kept =>
      have hchecked := settles_checkRcvFin c seg
      have hreceives : ∀ r, receives r (.segmentReceived seg) = r.segmentReceived seg := by
        intro r
        rw [receives, kept, if_neg Bool.false_ne_true]
      have hhandled : (c.handle seg).receiver = (c.checkRcvFin seg).receiver.segmentReceived seg := rfl
      refine hsettles.marks ?_ (hhandled.trans (hreceives _).symm) (hchecked.lingers lingers)
      have hsame : (c.checkRcvFin seg).peerFinAcking = c.peerFinAcking := by
        have htake : c.checkRcvFin seg = (c.notePeerFin seg).noteFinAcked seg := rfl
        rw [notePeerFin_frame] at htake
        rw [htake]
        rcases noteFinAcked_cases _ seg with heq | ⟨-, heq⟩
        · rw [heq]
        · rw [heq, checkLinger_frame]
      rw [← hsame]
      exact hchecked.receiver
    | _ => exact hsettles.marks (.inl rfl) rfl lingers
  | giveUp ms many => exact ⟨⟨_, .inl rfl, .inr (.inr rfl)⟩, lingers⟩
  | reset seg rst =>
    refine ⟨⟨_, .inl rfl, .inr (.inr ?_)⟩, lingers⟩
    rw [receives, if_pos rst]
    rfl
  | read len => exact ⟨⟨_, .inl rfl, .inl rfl⟩, lingers⟩
  | idle data none => exact ⟨⟨_, .inl rfl, .inl rfl⟩, lingers⟩

/-- The receive buffer keeps its size. -/
theorem Ready.receiver_capacity (h : c.Ready) (call : Call c op c') :
    c'.receiver.capacity = c.receiver.capacity := by
  obtain ⟨r, hbefore, -, hafter⟩ := h.receiver call
  obtain ⟨-, -, -, -, -, hafter, -⟩ := hafter.same
  obtain ⟨-, -, -, -, -, hbefore, -⟩ := hbefore.same
  rw [hafter, ← hbefore]
  unfold receives
  split
  · split
    · rfl
    · exact (r.segmentReceived_frame _).1
  · rfl
  · rfl

end TCPConnection

/-! ## Two ends -/

namespace Endpoint

open TCPConnection (Op Closing Regular)

variable {x y : Endpoint} {isn isn₂ : WrappingInt32} {log hist log₂ hist₂ : List TCPSegment} {op : Op}

/-- The end of the stream at the receiving end `y` of a direction with the log `log`. -/
structure Honest (isn isn₂ : WrappingInt32) (log : List TCPSegment) (y : Endpoint) : Prop where
  ending : TCPReceiver.Ending (sentBytes log) isn y.conn.receiver
  closing : ∃ T log hist, Closing T isn₂ log hist y.conn
  lingers : y.conn.lingering = true → y.conn.peerFinAcking = true
  narrow : y.conn.receiver.capacity ≤ 2 ^ 29

theorem honest_new (isn : WrappingInt32) (cfg : TCPConfig) (narrow : cfg.recvCapacity ≤ 2 ^ 29) :
    Honest isn cfg.isn [] (new cfg) where
  ending := TCPReceiver.ending_new [] isn cfg.recvCapacity
  closing := ⟨_, _, _, TCPConnection.closing_new cfg⟩
  lingers := nofun
  narrow := narrow

theorem Honest.windowSize_le (h : Honest isn isn₂ log y) : y.conn.receiver.windowSize ≤ 2 ^ 29 :=
  Nat.le_trans (Nat.sub_le _ _) h.narrow

/-- Before the SYN only the SYN arrives. -/
theorem Way.first (h : Way isn log hist x y)
    {seg : TCPSegment} (waits : TCPConnection.Waiting log x.conn y.conn → seg.header.syn = true) :
    TCPReceiver.Fresh (sentBytes log) y.conn.receiver ∧ seg.header.syn = true ∨
      TCPReceiver.Started (sentBytes log) isn y.conn.receiver :=
  h.lane.phase.imp (fun waiting => ⟨waiting.fresh, waits waiting⟩) And.left

/-- **Between two connections every segment is regular.** -/
theorem Way.regular (h : Way isn log hist x y) (back : Way isn₂ log₂ hist₂ y x)
    (honest : Honest isn isn₂ log y) (few : x.conn.sender.nextSeqno < 2 ^ 30)
    (few₂ : y.conn.sender.nextSeqno < 2 ^ 30)
    (delivers : ∀ seg, op = .segmentReceived seg → seg ∈ x.conn.segmentsOut) :
    y.conn.Few ∧ Regular y.conn op := by
  have hshort := h.lane.short few
  have hwindow := honest.windowSize_le
  refine ⟨⟨by omega, ?_⟩, ?_⟩
  · obtain ⟨T, l, hs, hclosing⟩ := honest.closing
    unfold TCPReceiver.rightEdge
    rcases h.lane.phase with waiting | ⟨hstarted, -⟩
    · have hzero := (hclosing.counted.waiting waiting.fresh.noSyn).2.2.1
      omega
    · have hacked := hstarted.ackNo64_le
      omega
  · cases op with
    | segmentReceived seg =>
      intro kept
      have hsent := delivers seg rfl
      refine ⟨fun hack _ => .inl ?_, fun hfin => ?_⟩
      · -- the peer acknowledges what it has, and it has only what was sent
        obtain ⟨n, hn, hackno⟩ := back.lane.acks seg hsent hack
        rcases back.lane.phase with waiting | ⟨hstarted, hbegun⟩
        · rw [waiting.silent seg hsent] at hack
          cases hack
        · have hle : x.conn.receiver.ackNo64 ≤ y.conn.sender.nextSeqno :=
            back.lane.accounts.ackNo64_le hstarted hbegun back.lane.fin
          have hisn : y.conn.sender.isn = isn₂ := back.lane.accounts.isn_eq
          rw [TCPConnection.unwrapInConnectionSender, hisn, hackno,
            unwrap_wrap isn₂ (by omega) (by omega) (by omega)]
          omega
      · rcases h.lane.arrives hsent kept with hblank | ⟨-, ⟨i, hcarved⟩, hwaits, -⟩
        · rw [(seg.blank_of_length hblank).2.2] at hfin
          cases hfin
        · exact TCPReceiver.placed_of_carved (h.first hwaits) hcarved hshort hwindow
    | _ => trivial

/-- A FIN segment that arrives is not cut. -/
def Uncut (y : Endpoint) : Op → Prop
  | .segmentReceived seg => seg.header.fin = true → seg.payload.str ≠ [] →
    (y.conn.receiver.acceptSyn seg).cutToWindow seg = seg.payload.str
  | _ => True

instance (y : Endpoint) : ∀ op, Decidable (y.Uncut op)
  | .segmentReceived _ => inferInstanceAs (Decidable (_ → _ → _))
  | .connect | .write _ | .endInputStream | .tick _ | .read _ => inferInstanceAs (Decidable True)

/-- What an operation makes of a receiver whose end is honest. -/
theorem Way.ending_receives (h : Way isn log hist x y) (few : x.conn.sender.nextSeqno < 2 ^ 30)
    {r : TCPReceiver} (flagged : y.conn.receiver.Flagged r)
    (ending : TCPReceiver.Ending (sentBytes log) isn r)
    (delivers : ∀ seg, op = .segmentReceived seg → seg ∈ x.conn.segmentsOut) (uncut : y.Uncut op) :
    TCPReceiver.Ending (sentBytes log) isn (TCPConnection.receives r op) := by
  have hshort := h.lane.short few
  cases op with
  | segmentReceived seg =>
    unfold TCPConnection.receives
    dsimp only
    split
    · exact ending
    next hrst =>
      rcases h.lane.arrives (delivers seg rfl) (eq_false_of_ne_true hrst) with
        hblank | ⟨-, ⟨i, hcarved⟩, hwaits, -⟩
      · exact ending.blank hblank hshort
      · refine ending.segmentReceived hcarved (fun hnoSyn => ?_) (fun hfin hpayload => ?_) hshort
        · rw [flagged.same.2.2.2.1] at hnoSyn
          rcases h.first hwaits with hfresh | hstarted
          · exact hfresh.2
          · rw [hstarted.syn] at hnoSyn
            cases hnoSyn
        · rw [flagged.cutToWindow]
          exact uncut hfin hpayload
  | read len => exact ending.popOutput len
  | _ => exact ending

/-- **The receiving end moves, and its end stays honest.** -/
theorem Honest.move (honest : Honest isn isn₂ log y) (h : Way isn log hist x y)
    (back : Way isn₂ log₂ hist₂ y x) (few : x.conn.sender.nextSeqno < 2 ^ 30)
    (few₂ : y.conn.sender.nextSeqno < 2 ^ 30)
    (delivers : ∀ seg, op = .segmentReceived seg → seg ∈ x.conn.segmentsOut) (uncut : y.Uncut op) :
    Honest isn isn₂ log (y.step op) := by
  have hcall := y.conn.call_step op
  obtain ⟨hfew, hregular⟩ := h.regular back honest few few₂ delivers
  obtain ⟨T, l, hs, hclosing⟩ := honest.closing
  obtain ⟨T', l', hs', hclosing'⟩ := hclosing.call back.ready hfew hregular hcall
  obtain ⟨⟨r, hbefore, hafter⟩, hlingers⟩ := TCPConnection.marks_call honest.lingers hcall
  have hflagged : y.conn.receiver.Flagged r := by
    rcases hbefore with rfl | ⟨-, rfl⟩
    · exact .refl _
    · exact TCPReceiver.flagged_endInput _
  have hmarked : TCPReceiver.Ending (sentBytes log) isn r := by
    rcases hbefore with rfl | ⟨hacking, rfl⟩
    · exact honest.ending
    · exact honest.ending.endInput ((hclosing.acking hacking).complete_of_ending honest.ending)
  have hreceived := h.ending_receives few hflagged hmarked delivers uncut
  refine ⟨?_, ⟨T', l', hs', hclosing'⟩, hlingers, ?_⟩
  · show TCPReceiver.Ending _ _ (y.conn.step op).receiver
    rcases hafter with hsame | ⟨hacking, hended⟩ | hfailed
    · rw [hsame]
      exact hreceived
    · have hall := hclosing'.acking hacking
      rw [hended] at hall ⊢
      have hall : (TCPConnection.receives r op).Assembled := ⟨hall.syn, hall.fin, hall.acked⟩
      exact hreceived.endInput (hall.complete_of_ending hreceived)
    · rw [hfailed]
      exact hreceived.setError
  · show (y.conn.step op).receiver.capacity ≤ 2 ^ 29
    rw [back.ready.receiver_capacity hcall]
    exact honest.narrow

/-- The sending end moves on. -/
theorem Honest.extend (honest : Honest isn isn₂ log y) (h : Way isn log hist x y) {x' : Endpoint}
    {new hist' : List TCPSegment} (h' : Way isn (log ++ new) hist' x' y) :
    Honest isn isn₂ (log ++ new) y := by
  refine ⟨?_, honest.closing, honest.lingers, honest.narrow⟩
  rw [sentBytes_append]
  exact honest.ending.extend fun hfin =>
    h.lane.accounts.sentBytes_new h'.lane.accounts (h.lane.fin hfin)

/-- **At the end of the stream everything written has been read**, and the writer has closed. -/
theorem Honest.complete (honest : Honest isn isn₂ log y) (h : Way isn log hist x y)
    (eof : y.conn.inboundStream.eof = true) :
    x.conn.sender.finSent = true ∧ y.read = x.written := by
  unfold ByteStream.eof at eof
  rw [Bool.and_eq_true, List.isEmpty_iff] at eof
  obtain ⟨hempty, hend⟩ := eof
  obtain ⟨seg, hseg, hflag⟩ := h.lane.fin (honest.ending.ended hend)
  have hsent : x.conn.sender.finSent = true := (h.lane.ledger.books.fin_number hseg hflag).1
  have hwritten := honest.ending.sound.2.ended hend
  have hread := h.carries.written
  have hnone : y.conn.receiver.streamOut.buf = [] := hempty
  have hall : sentBytes log = x.written := by
    have heof : x.conn.sender.stream.eof = true := (h.lane.accounts.finLast hsent).2
    unfold ByteStream.eof at heof
    rw [Bool.and_eq_true, List.isEmpty_iff] at heof
    have hlength : x.conn.sender.stream.totalBytesWritten = x.written.length := h.lane.accounts.whole
    have htotal : x.conn.sender.stream.totalBytesWritten = x.conn.sender.stream.totalBytesRead +
      x.conn.sender.stream.buf.length := h.lane.accounts.carries.written
    have hpayloads : sentBytes log = x.written.take x.conn.sender.stream.totalBytesRead :=
      h.lane.accounts.payloads
    rw [heof.1, List.length_nil, Nat.add_zero, hlength] at htotal
    rw [hpayloads, ← htotal, List.take_length]
  refine ⟨hsent, ?_⟩
  rw [hnone, List.length_nil, Nat.add_zero] at hread
  have htaken := h.taken
  rw [← hread, show y.conn.receiver.streamOut.totalBytesWritten = (sentBytes log).length from hwritten,
    List.take_length, hall] at htaken
  exact htaken

end Endpoint

namespace Duplex

variable {s : Duplex} {cfg cfg' : TCPConfig}

/-- The network delivers what was sent, and no FIN segment is cut. -/
def AllowedUncut (s : Duplex) (op : Side × TCPConnection.Op) : Prop :=
  s.Allowed op ∧ (s.on op.1).Uncut op.2

instance (s : Duplex) (op : Side × TCPConnection.Op) : Decidable (s.AllowedUncut op) :=
  inferInstanceAs (Decidable (_ ∧ _))

/-- Both directions, with the ends of their streams. -/
def Honest (isn isn' : WrappingInt32) (s : Duplex) : Prop :=
  ∃ log hist log' hist', Endpoint.Way isn log hist s.left s.right ∧
    Endpoint.Way isn' log' hist' s.right s.left ∧ Endpoint.Honest isn isn' log s.right ∧
    Endpoint.Honest isn' isn log' s.left

theorem Honest.step {isn isn' : WrappingInt32} (h : Honest isn isn' s) {op : Side × TCPConnection.Op}
    (allowed : s.AllowedUncut op) : Honest isn isn' (s.step op) := by
  obtain ⟨log, hist, log', hist', hleft, hright, hhonest, hhonest'⟩ := h
  obtain ⟨side, op⟩ := op
  obtain ⟨⟨hdelivers, hfew⟩, huncut⟩ := allowed
  have hsent := hdelivers.sent
  cases side with
  | left =>
    obtain ⟨new, queue, hmoved, hback⟩ := hleft.move hright hsent hfew.1 hfew.2
    exact ⟨_, _, _, _, hmoved, hback, hhonest.extend hleft hmoved,
      hhonest'.move hright hleft hfew.2 hfew.1 hsent huncut⟩
  | right =>
    obtain ⟨new, queue, hmoved, hback⟩ := hright.move hleft hsent hfew.2 hfew.1
    exact ⟨_, _, _, _, hback, hmoved, hhonest.move hleft hright hfew.1 hfew.2 hsent huncut,
      hhonest'.extend hright hmoved⟩

/-- **The end of the stream is honest**, between two connections with receive buffers of at most `2 ^ 29`
bytes, over a network that loses, repeats and reorders, as long as no FIN segment is cut at the edge of the
window: an owner who reads the end of the stream has read everything that the other owner wrote, and the
other owner has closed its stream. -/
theorem eof_honest (narrow : cfg.recvCapacity ≤ 2 ^ 29) (narrow' : cfg'.recvCapacity ≤ 2 ^ 29)
    (run : Runs.Reach step AllowedUncut (new cfg cfg') s) (side : Side)
    (eof : (s.on side).conn.inboundStream.eof = true) :
    (s.on side.other).conn.sender.finSent = true ∧ (s.on side).read = (s.on side.other).written := by
  have hhonest : Honest cfg.isn cfg'.isn s := by
    refine run.invariant (Honest cfg.isn cfg'.isn) ?_ fun _ _ h allowed => h.step allowed
    exact ⟨_, _, _, _, Endpoint.way_new cfg cfg', Endpoint.way_new cfg' cfg,
      Endpoint.honest_new _ cfg' narrow', Endpoint.honest_new _ cfg narrow⟩
  obtain ⟨log, hist, log', hist', hleft, hright, hhonest, hhonest'⟩ := hhonest
  cases side with
  | left => exact hhonest'.complete hright eof
  | right => exact hhonest.complete hleft eof

/-- The right end writes a byte and closes; the left end reads it, and then the end. -/
theorem eof_honest_byte :
    let cfg : TCPConfig := { recvCapacity := 8, sendCapacity := 8 }
    let syn : TCPSegment :=
      { header := { seqno := ⟨0⟩, syn := true, win := 8 }, payload := Buffer.ofString [] }
    let synAck : TCPSegment :=
      { header := { seqno := ⟨0⟩, syn := true, ack := true, ackno := ⟨1⟩, win := 8 },
        payload := Buffer.ofString [] }
    let ack : TCPSegment := { header := { seqno := ⟨1⟩, ack := true, ackno := ⟨1⟩, win := 8 } }
    let data : TCPSegment :=
      { header := { seqno := ⟨1⟩, ack := true, ackno := ⟨1⟩, win := 8 }, payload := Buffer.ofString [1] }
    let fin : TCPSegment :=
      { header := { seqno := ⟨2⟩, fin := true, ack := true, ackno := ⟨1⟩, win := 8 },
        payload := Buffer.ofString [] }
    let s := [(.left, .connect), (.right, .segmentReceived syn), (.left, .segmentReceived synAck),
      (.right, .segmentReceived ack), (.right, .write [1]), (.right, .endInputStream),
      (.left, .segmentReceived fin), (.left, .segmentReceived data), (.left, .read 5)].foldl step
        (new cfg cfg)
    s.left.conn.inboundStream.eof = true ∧ s.right.conn.sender.finSent = true ∧
      s.left.read = s.right.written ∧ s.right.written = [1] := by
  intro cfg syn synAck ack data fin s
  have run : Runs.Reach step AllowedUncut (new cfg cfg) s := Runs.reach_foldl .start (by decide +kernel)
  have heof : s.left.conn.inboundStream.eof = true := by decide +kernel
  obtain ⟨hfin, hread⟩ := eof_honest (by decide) (by decide) run .left heof
  exact ⟨heof, hfin, hread, by decide +kernel⟩

end Duplex

end Sponge
