import Sponge.Laws.Tcp.Connection
import Sponge.Laws.Tcp.Filling

/-!
# Laws.Tcp.Finished — what a finished connection may still do

No call of the connection asks first whether it is over. So a finished connection stays finished and
silent only as long as the pieces have nothing to say: the sender has nothing it may send, its timer
does not go off, no segment asks for an answer, and none restarts the linger. `Quiet` is that, call by
call, and it is exact.
-/

namespace Sponge

open Word64 (add)

namespace TCPSender

variable {s : TCPSender}

/-- What is not silent speaks. -/
theorem fillWindow_ne_of_not_silent (marked : s.Marked) (loud : ¬s.Silent) :
    s.fillWindow.segmentsOut ≠ s.segmentsOut := by
  rw [fillWindow_eq marked.finLast]
  rcases fillTurn_cases marked.finLast with ⟨heq, hsyn⟩ | ⟨data, fin, go, heq, hfin, hsend, -⟩
  · exact absurd (silent_of_fillTurn hsyn heq) loud
  · obtain ⟨new, hnew⟩ := (marked.send hfin hsend).fillWindow.2
    have hone : (s.send data fin).segmentsOut = s.segmentsOut ++ [s.fresh data fin] := rfl
    rw [heq]
    dsimp only
    split
    · rw [hnew, hone, List.append_assoc]
      exact fun hc => List.cons_ne_nil _ _ (List.append_right_eq_self.mp hc)
    · rw [hone]
      exact fun hc => List.cons_ne_nil _ _ (List.append_right_eq_self.mp hc)

/-- The sender has no answer to a segment: it ignores the acknowledgment, or has nothing to send
behind it. -/
def Answerless (s : TCPSender) (seg : TCPSegment) : Prop :=
  if seg.header.ack then
    s.nextSeqno < unwrap seg.header.ackno s.isn s.ackedNext ∨
      (s.acceptAck (unwrap seg.header.ackno s.isn s.ackedNext) seg.header.win).Silent
  else if seg.header.syn then s.Silent
  else True

instance (s : TCPSender) (seg : TCPSegment) : Decidable (s.Answerless seg) := by
  unfold Answerless
  infer_instance

/-- A segment without an answer queues nothing, every other one does. -/
theorem Marked.answer_cases (h : s.Marked) (seg : TCPSegment) :
    s.Answerless seg ∧ (s.answer seg).segmentsOut = s.segmentsOut ∧
        (s.answer seg).nextSeqno = s.nextSeqno ∨
      ¬s.Answerless seg ∧ (s.answer seg).segmentsOut ≠ s.segmentsOut := by
  unfold Answerless TCPSender.answer
  split
  · rw [ackReceived_eq]
    generalize unwrap seg.header.ackno s.isn s.ackedNext = absAckno
    have hacked := h.acceptAck absAckno seg.header.win
    by_cases hbeyond : s.nextSeqno < absAckno
    · rw [if_pos hbeyond]
      exact .inl ⟨.inl hbeyond, rfl, rfl⟩
    · rw [if_neg hbeyond]
      by_cases hsilent : (s.acceptAck absAckno seg.header.win).Silent
      · rw [fillWindow_of_silent hacked.finLast hsilent]
        exact .inl ⟨.inr hsilent, rfl, rfl⟩
      · exact .inr ⟨fun hc => hc.elim hbeyond hsilent, fillWindow_ne_of_not_silent hacked hsilent⟩
  · split
    · by_cases hsilent : s.Silent
      · rw [fillWindow_of_silent h.finLast hsilent]
        exact .inl ⟨hsilent, rfl, rfl⟩
      · exact .inr ⟨hsilent, fillWindow_ne_of_not_silent h hsilent⟩
    · exact .inl ⟨trivial, rfl, rfl⟩

/-- The empty segment is all `acknowledge` adds. -/
theorem acknowledge_eq_nil_iff (s : TCPSender) (asked : Bool) :
    (s.acknowledge asked).segmentsOut = [] ↔
      s.segmentsOut = [] ∧ (s.nextSeqno = 0 ∨ asked = false) := by
  unfold acknowledge sendEmptySegment
  split
  next hc => simp [hc.2.2, Nat.ne_of_gt hc.1]
  next hc =>
    constructor
    · intro hnil
      refine ⟨hnil, ?_⟩
      by_contra hloud
      push Not at hloud
      exact hc ⟨Nat.pos_of_ne_zero hloud.1, hnil, eq_true_of_ne_false hloud.2⟩
    · exact And.left

/-- A tick sends the oldest segment again exactly when there is one and the timer goes off. -/
theorem tick_segmentsOut (s : TCPSender) (ms : Nat) :
    (s.tick ms).segmentsOut = s.segmentsOut ↔
      s.outstandingBuffer = [] ∨ (s.timer.pass ms).isExpire = false := by
  unfold tick
  dsimp only
  cases (s.timer.pass ms).isExpire with
  | true => cases s.outstandingBuffer <;> simp
  | false => simp

end TCPSender

namespace TCPConnection

variable {c : TCPConnection} {seg : TCPSegment}

/-- A segment acknowledges the FIN of a connection that was to linger, once more. -/
def Revives (c : TCPConnection) (seg : TCPSegment) : Prop :=
  c.lingerAfterStreamsFinish = true ∧ (seg.header.fin = true → c.firstSendFin = true) ∧
    seg.header.ack = true ∧ 0 < c.selfFinSeqno ∧
    c.selfFinSeqno ≤ c.unwrapInConnectionSender seg.header.ackno

instance (c : TCPConnection) (seg : TCPSegment) : Decidable (c.Revives seg) :=
  inferInstanceAs (Decidable (_ ∧ _))

/-- What a finished connection may be asked without stirring. -/
def Quiet (c : TCPConnection) : Op → Prop
  | .connect => c.sender.Silent
  | .write data => data.length = 0 ∨ (c.sender.write data).Silent
  | .endInputStream => c.sender.endInput.Silent
  | .tick ms =>
    c.sender.timer.failCount.toNat < MAX_RETX_ATTEMPTS ∧
      (c.lingering = true ∨ c.sender.outstandingBuffer = [] ∨
        (c.sender.timer.pass ms).isExpire = false)
  | .segmentReceived seg =>
    seg.header.rst = true ∨
      c.sender.Answerless seg ∧ (c.sender.nextSeqno = 0 ∨ c.receiver.asksForAck seg = false) ∧
        (c.rst = true ∨ ¬c.Revives seg)
  | .read _ => True

instance (c : TCPConnection) : ∀ op, Decidable (c.Quiet op)
  | .connect => inferInstanceAs (Decidable (TCPSender.Silent _))
  | .write _ => inferInstanceAs (Decidable (_ ∨ _))
  | .endInputStream => inferInstanceAs (Decidable (TCPSender.Silent _))
  | .tick _ => inferInstanceAs (Decidable (_ ∧ _))
  | .segmentReceived _ => inferInstanceAs (Decidable (_ ∨ _))
  | .read _ => inferInstanceAs (Decidable True)

/-- Still over, and nothing sent since. -/
def StillOver (c c' : TCPConnection) : Prop :=
  c'.active = false ∧ c'.segmentsOut = c.segmentsOut

theorem active_eq_false_iff (c : TCPConnection) : c.active = false ↔
    c.rst = true ∨ c.selfFinAcked = true ∧ c.peerFinAcking = true ∧ c.lingering = false := by
  unfold active
  cases c.rst <;> cases c.selfFinAcked <;> cases c.peerFinAcking <;> cases c.lingering <;> decide

/-- A sender that has filled its window leaves the connection as it was exactly when it was silent. -/
theorem Ready.fill_stillOver (h : c.Ready) (inactive : c.active = false) {sender : TCPSender}
    (marked : sender.Marked) (fin : c.sender.finSent = true → sender.finSent = true)
    (empty : sender.segmentsOut = []) :
    StillOver c { c with sender := sender.fillWindow }.sendSegs ↔ sender.Silent := by
  by_cases hsilent : sender.Silent
  · rw [TCPSender.fillWindow_of_silent marked.finLast hsilent, sendSegs_of_empty empty]
    exact ⟨fun _ => hsilent, fun _ => ⟨inactive, rfl⟩⟩
  · have hloud := TCPSender.fillWindow_ne_of_not_silent marked hsilent
    rw [empty] at hloud
    have hsound := h.sound.fill marked fin
    exact ⟨fun hstill => absurd hstill.2 (hsound.sendSegs_ne hloud), fun hc => absurd hc hsilent⟩

theorem Ready.checkTimers_stillOver (h : c.Ready) (inactive : c.active = false) (ms : Nat) :
    StillOver c (c.checkTimers ms) ↔ c.Quiet (.tick ms) := by
  unfold TCPConnection.checkTimers Quiet
  split
  next hmany =>
    refine ⟨fun hstill => ?_, fun hquiet => absurd hquiet.1 (Nat.not_lt_of_le hmany)⟩
    exact absurd (List.append_right_eq_self.mp hstill.2) (List.cons_ne_nil _ _)
  next hfew =>
    have hfew := Nat.lt_of_not_le hfew
    split
    next hlinger =>
      rw [Bool.not_eq_true'] at hlinger
      have hsound := h.sound.setSender (h.sound.marked.tick ms) (by rw [TCPSender.tick_finSent]; exact id)
      have hout := c.sender.tick_segmentsOut ms
      rw [h.empty] at hout
      by_cases hidle : (c.sender.tick ms).segmentsOut = []
      · rw [sendSegs_of_empty hidle]
        exact ⟨fun _ => ⟨hfew, .inr (hout.mp hidle)⟩, fun _ => ⟨inactive, rfl⟩⟩
      · refine ⟨fun hstill => absurd hstill.2 (hsound.sendSegs_ne hidle), fun hquiet => ?_⟩
        rcases hquiet.2 with hc | hc
        · rw [hlinger] at hc
          cases hc
        · exact absurd (hout.mpr hc) hidle
    next hlinger =>
      rw [Bool.not_eq_true', Bool.not_eq_false] at hlinger
      refine ⟨fun _ => ⟨hfew, .inl hlinger⟩, fun _ => ?_⟩
      -- a lingering connection is over only by a reset
      have hreset : c.rst = true := by
        refine ((active_eq_false_iff c).mp inactive).resolve_right fun hc => ?_
        rw [hlinger] at hc
        cases hc.2.2
      have hexpiry : c.checkExpiry.sender = c.sender ∧ c.checkExpiry.segmentsOut = c.segmentsOut ∧
          c.checkExpiry.rst = c.rst := by
        unfold checkExpiry
        split
        · exact ⟨rfl, rfl, rfl⟩
        · exact ⟨rfl, rfl, rfl⟩
      rw [sendSegs_of_empty (by rw [hexpiry.1]; exact h.empty)]
      exact ⟨(active_eq_false_iff _).mpr (.inl (hexpiry.2.2.trans hreset)), hexpiry.2.1⟩

/-! ## An arriving segment -/

/-- The checks wake a connection that closed exactly when the segment revives it. -/
theorem checkRcvFin_lingering (seg : TCPSegment) (self : c.selfFinAcked = true)
    (peer : c.peerFinAcking = true) (quiet : c.lingering = false) :
    (c.checkRcvFin seg).selfFinAcked = true ∧ (c.checkRcvFin seg).peerFinAcking = true ∧
      ((c.checkRcvFin seg).lingering = true ↔ c.Revives seg) := by
  have hrevives : c.Revives seg ↔
      (c.lingerAfterStreamsFinish && (!seg.header.fin || c.firstSendFin)) = true ∧
        (0 < c.selfFinSeqno ∧ seg.header.ack = true) ∧
        c.selfFinSeqno ≤ c.unwrapInConnectionSender seg.header.ackno := by
    unfold Revives
    cases seg.header.fin <;> simp <;> tauto
  have hstays : c.lingering = true ↔ False := by
    rw [quiet]
    exact ⟨nofun, nofun⟩
  rw [hrevives]
  unfold checkRcvFin
  rw [notePeerFin_frame]
  generalize (if seg.header.fin then
    add (c.unwrapInConnectionReceiver seg.header.seqno) seg.lengthInSequenceSpace
      else c.peerFinSeqno) = peerFinSeqno
  unfold noteFinAcked
  split
  next hasked =>
    split
    next hcovers =>
      refine ⟨?_, ?_, ?_⟩
      · rw [checkLinger_frame]
      · rw [checkLinger_frame]
        exact peer
      · rw [checkLinger_lingering]
        dsimp only
        rw [quiet, peer, Bool.false_or, Bool.true_and, Bool.true_and]
        exact ⟨fun hdue => ⟨hdue, hasked, hcovers⟩, And.left⟩
    next hcovers => exact ⟨self, peer, hstays.trans ⟨nofun, fun hc => absurd hc.2.2 hcovers⟩⟩
  next hasked => exact ⟨self, peer, hstays.trans ⟨nofun, fun hc => absurd hc.2.1 hasked⟩⟩

/-- A segment wakes a connection that is over exactly when it was not reset and the segment revives it. -/
theorem Sound.handle_active (h : c.Sound) (inactive : c.active = false) (seg : TCPSegment) :
    (c.handle seg).active = false ↔ c.rst = true ∨ ¬c.Revives seg := by
  have hsame : (c.handle seg).active = (c.checkRcvFin seg).active := rfl
  have hrst := (h.checkRcvFin seg).1.rst
  rw [hsame, active_eq_false_iff, hrst]
  rcases (active_eq_false_iff c).mp inactive with hreset | ⟨hself, hpeer, hlinger⟩
  · exact ⟨fun _ => .inl hreset, fun _ => .inl hreset⟩
  · obtain ⟨hself, hpeer, hrevives⟩ := checkRcvFin_lingering seg hself hpeer hlinger
    rw [← hrevives, Bool.not_eq_true]
    exact or_congr_right ⟨fun hc => hc.2.2, fun hc => ⟨hself, hpeer, hc⟩⟩

/-- Whether a segment asks for an answer can be told before it is handled. -/
theorem Sound.handle_asksForAck (h : c.Sound) (seg : TCPSegment) :
    (c.handle seg).receiver.asksForAck seg = c.receiver.asksForAck seg := by
  unfold TCPReceiver.asksForAck
  by_cases hlen : 0 < seg.lengthInSequenceSpace
  · simp [hlen]
  · have hblank : seg.lengthInSequenceSpace = 0 := by omega
    have hackno : (c.handle seg).receiver.ackno = c.receiver.ackno := by
      rcases (h.handle seg).2.2.1 with hrec | hrec
      · rw [hrec, h.settled.blank hblank]
      · have hended : c.receiver.endInput.Settled := h.settled
        rw [hrec, hended.blank hblank]
        rfl
    rw [hackno]

/-- The queue behind a handled segment is empty exactly when there was nothing to answer. -/
theorem Ready.handle_empty_iff (h : c.Ready) (seg : TCPSegment) :
    (c.handle seg).sender.segmentsOut = [] ↔
      c.sender.Answerless seg ∧ (c.sender.nextSeqno = 0 ∨ c.receiver.asksForAck seg = false) := by
  rw [(h.sound.handle seg).2.1, TCPSender.acknowledge_eq_nil_iff, h.sound.handle_asksForAck]
  rcases h.sound.marked.answer_cases seg with ⟨hnone, hout, hnext⟩ | ⟨hsome, hout⟩
  · rw [hout, hnext, h.empty]
    exact and_congr_left' ⟨fun _ => hnone, fun _ => rfl⟩
  · rw [h.empty] at hout
    exact ⟨fun hc => absurd hc.1 hout, fun hc => absurd hc.1 hsome⟩

theorem Ready.segmentReceived_stillOver (h : c.Ready) (inactive : c.active = false) (seg : TCPSegment) :
    StillOver c (c.segmentReceived seg) ↔ c.Quiet (.segmentReceived seg) := by
  obtain ⟨hsound, -, -, hout, -⟩ := h.sound.handle seg
  have hempty := h.handle_empty_iff seg
  have hactive := h.sound.handle_active inactive seg
  unfold TCPConnection.segmentReceived Quiet
  split
  next hrst =>
    refine ⟨fun _ => .inl hrst, fun _ => ⟨?_, List.append_nil _⟩⟩
    exact (active_eq_false_iff _).mpr (.inl rfl)
  next hrst =>
    by_cases hidle : (c.handle seg).sender.segmentsOut = []
    · rw [sendSegs_of_empty hidle]
      constructor
      · intro hstill
        obtain ⟨hanswer, hasks⟩ := hempty.mp hidle
        exact .inr ⟨hanswer, hasks, hactive.mp hstill.1⟩
      · intro hquiet
        obtain ⟨-, -, hwake⟩ := hquiet.resolve_left hrst
        exact ⟨hactive.mpr hwake, hout⟩
    · have hloud := hsound.sendSegs_ne hidle
      rw [hout] at hloud
      constructor
      · exact fun hstill => absurd hstill.2 hloud
      · intro hquiet
        obtain ⟨hanswer, hasks, -⟩ := hquiet.resolve_left hrst
        exact absurd (hempty.mpr ⟨hanswer, hasks⟩) hidle

theorem Ready.stillOver_iff (h : c.Ready) (inactive : c.active = false) (op : Op) :
    StillOver c (c.step op) ↔ c.Quiet op := by
  cases op with
  | connect => exact h.fill_stillOver inactive h.sound.marked id h.empty
  | write data =>
    show StillOver c (c.write data).1 ↔ _ ∨ _
    unfold TCPConnection.write
    split
    next hnone => exact ⟨fun _ => .inl hnone, fun _ => ⟨inactive, rfl⟩⟩
    next hsome =>
      rw [or_iff_right hsome]
      exact h.fill_stillOver inactive (h.sound.marked.write data) id h.empty
  | endInputStream => exact h.fill_stillOver inactive h.sound.marked.endInput id h.empty
  | tick ms =>
    have hpass : (c.pass ms).Ready :=
      ⟨⟨h.sound.marked, h.sound.numbered, h.sound.acked, h.sound.settled⟩, h.empty⟩
    exact hpass.checkTimers_stillOver inactive ms
  | segmentReceived seg => exact h.segmentReceived_stillOver inactive seg
  | read len => exact ⟨fun _ => trivial, fun _ => ⟨inactive, rfl⟩⟩

/-- **Exactly when a finished connection stays finished.** In every state a connection reaches, once it
is over, a call leaves it over and sends nothing exactly when the call is quiet. -/
theorem finished_iff_quiet {cfg : TCPConfig} (run : Runs.Reach step (fun _ _ => True) (new cfg) c)
    (inactive : c.active = false) (op : Op) :
    (c.step op).active = false ∧ (c.step op).segmentsOut = c.segmentsOut ↔ c.Quiet op :=
  (run.invariant Ready (ready_new cfg) fun _ op h _ => h.step op).stillOver_iff inactive op

/-- A connection that was reset is told of an old acknowledgment, and says nothing. -/
theorem finished_iff_quiet_ack :
    let c := [.connect, .segmentReceived { header := { rst := true } }].foldl step (new {})
    let op := Op.segmentReceived { header := { seqno := ⟨7⟩, ack := true, ackno := ⟨1⟩, win := 5 } }
    (c.step op).active = false ∧ (c.step op).segmentsOut = c.segmentsOut := by
  intro c op
  have run : Runs.Reach step (fun _ _ => True) (new {}) c := Runs.reach_foldl .start (by decide)
  exact (finished_iff_quiet run (by decide) op).mpr (by decide)

/-- **A connection that was reset sends its SYN when it is told to connect.** -/
theorem reset_then_connects :
    let c := [.segmentReceived { header := { rst := true } }].foldl step (new {})
    Runs.Reach step (fun _ _ => True) (new {}) c ∧ c.active = false ∧
      (c.step .connect).segmentsOut ≠ c.segmentsOut := by
  intro c
  exact ⟨Runs.reach_foldl .start (by decide), by decide, by decide⟩

end TCPConnection

end Sponge
