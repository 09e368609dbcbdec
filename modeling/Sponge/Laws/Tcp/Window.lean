import Sponge.Laws.Tcp.Sending

/-!
# Laws.Tcp.Window — how far the sender sends

The sender keeps no right edge. It keeps what is left of a window, counted from the next number to
send, and `ack_received` computes it afresh from each acknowledgment and the bytes still in flight.
That is the window counted from the first number not fully acknowledged, and not from the number the
acknowledgment carries: an acknowledgment older than that number moves the window forward.

`Reaches` is the invariant that holds as long as no acknowledgment does (`Timely`).
-/

namespace Sponge

namespace TCPSender

/-- The sender sends no number from `limit` on, and has room for its SYN. -/
structure Reaches (limit : Nat) (s : TCPSender) : Prop where
  below : s.nextSeqno + s.peerWindowSize ≤ limit
  room : s.synSent = false → 1 ≤ s.peerWindowSize

variable {s : TCPSender} {limit : Nat}

/-- A fresh segment takes from the window what it adds to the numbers sent. -/
theorem Reaches.send (h : Reaches limit s) {data : Bytes} {fin : Bool}
    (sendable : s.Sendable data fin) : Reaches limit (s.send data fin) := by
  refine ⟨?_, nofun⟩
  have hbelow := h.below
  have hfits := sendable.within h.room
  show s.nextSeqno + _ + (s.peerWindowSize - _) ≤ limit
  omega

theorem Reaches.fillWindow (h : Reaches limit s) (finLast : s.FinLast) :
    Reaches limit s.fillWindow := by
  obtain ⟨new, -, -, hreaches⟩ := fillLoop_rule (P := fun _ s => s.FinLast ∧ Reaches limit s)
    (fun _ _ h => h.1) (fun _ _ _ _ h _ hsend => ⟨send_finLast hsend, h.2.send hsend⟩)
    (s.fillBound + 1) [] ⟨finLast, h⟩
  exact hreaches

theorem Reaches.tick (h : Reaches limit s) (ms : Nat) : Reaches limit (s.tick ms) := by
  rw [tick_frame]
  exact ⟨h.below, h.room⟩

end TCPSender

namespace Sending

variable {isn : WrappingInt32} {s : Sending}

/-- An acknowledgment that is accepted is not older than the first number not fully acknowledged, or
its window, counted from that number, stays within the right edge or the bytes in flight. -/
def Timely (s : Sending) : Op → Prop
  | .ack ackno windowSize =>
    s.absAckno ackno ≤ s.sender.nextSeqno →
      s.sender.ackedNext ≤ s.absAckno ackno ∨
        s.sender.ackedNext + max 1 windowSize.toNat ≤ s.edge ∨
        max 1 windowSize.toNat ≤ s.sender.bytesInFlight
  | _ => True

instance (s : Sending) : ∀ op, Decidable (Timely s op)
  | .ack _ _ => inferInstanceAs (Decidable (_ → _))
  | .write _ | .endInput | .fillWindow | .tick _ | .sendEmpty => inferInstanceAs (Decidable True)

/-- The sender of a sending stays below its right edge; the SYN needs none. -/
def Within (s : Sending) : Prop := s.sender.Reaches (max s.edge 1)

/-- A timely acknowledgment leaves a window that ends at its own right edge or an older one. -/
theorem Within.acceptAck (h : Within s) (kept : Kept isn s) (inRange : s.sender.nextSeqno < 2 ^ 64)
    {absAckno : Nat} {windowSize : UInt16}
    (timely : s.sender.ackedNext ≤ absAckno ∨
      s.sender.ackedNext + max 1 windowSize.toNat ≤ s.edge ∨
      max 1 windowSize.toNat ≤ s.sender.bytesInFlight) :
    (s.sender.acceptAck absAckno windowSize).Reaches
      (max (max s.edge (absAckno + max 1 windowSize.toNat)) 1) := by
  obtain ⟨⟨popped, -, hacked, hbelow⟩, hflight, hwindow⟩ :=
    kept.acceptAck_cases inRange absAckno windowSize
  have hold := h.below
  have hbefore := kept.flight
  have hnext := s.sender.acceptAck_nextSeqno absAckno windowSize
  have hsame : (s.sender.acceptAck absAckno windowSize).synSent = s.sender.synSent := rfl
  generalize s.sender.acceptAck absAckno windowSize = out at *
  refine ⟨?_, fun hsyn => ?_⟩
  · rcases hbelow with rfl | hbelow
    · -- nothing popped: the window is counted from the same number as before
      rw [seqLen_nil] at hacked
      omega
    · omega
  · have hnone := kept.total
    rw [kept.unsent (hsame ▸ hsyn), seqLen_nil] at hnone
    omega

/-- **A timely operation keeps the sender below its right edge.** -/
theorem Within.step (h : Within s) (kept : Kept isn s) {op : Op} (timely : Timely s op)
    (inRange : s.sender.nextSeqno < 2 ^ 64) : Within (s.step op) := by
  cases op with
  | write data => exact ⟨h.below, h.room⟩
  | endInput => exact ⟨h.below, h.room⟩
  | fillWindow => exact h.fillWindow kept.finLast
  | tick ms => exact h.tick ms
  | sendEmpty => exact ⟨h.below, h.room⟩
  | ack ackno windowSize =>
    show (s.sender.ackReceived ackno windowSize).Reaches
      (max (if s.absAckno ackno ≤ s.sender.nextSeqno then
        max s.edge (s.absAckno ackno + max 1 windowSize.toNat) else s.edge) 1)
    rw [TCPSender.ackReceived_eq]
    rw [Timely] at timely
    unfold absAckno at timely ⊢
    generalize unwrap ackno s.sender.isn s.sender.ackedNext = absAckno at timely ⊢
    by_cases hsent : absAckno ≤ s.sender.nextSeqno
    · rw [if_pos hsent, if_neg (Nat.not_lt_of_le hsent)]
      exact (h.acceptAck kept inRange (timely hsent)).fillWindow
        (kept.acceptAck inRange absAckno windowSize).finLast
    · rw [if_neg hsent, if_pos (Nat.lt_of_not_le hsent)]
      exact ⟨h.below, h.room⟩

variable {capacity : Nat} {retxTimeout : UInt16}

/-- **The sender never overruns the window**, in every run whose acknowledgments are timely: every
number sent but the SYN's lies below the greatest acknowledgment number plus window accepted so far,
and nothing is ever queued but the segments numbered so and segments without a sequence number. -/
theorem sent_within_window (run : Runs.Reach step Timely (new capacity retxTimeout isn) s)
    (few : s.sender.nextSeqno < 2 ^ 63) :
    (∀ p ∈ number 0 s.log, p.2.header.seqno = wrap p.1 isn ∧
      ∀ n, p.1 ≤ n → n < p.1 + p.2.lengthInSequenceSpace → n ≠ 0 → n < s.edge) ∧
    ∀ seg ∈ s.sender.segmentsOut, seg ∈ s.log ∨ seg.lengthInSequenceSpace = 0 := by
  obtain ⟨kept, within⟩ : Kept isn s ∧ Within s := by
    refine run.invariant_below (fun s => Kept isn s ∧ Within s) (fun s => s.sender.nextSeqno)
      ⟨accounts_new capacity retxTimeout isn, Nat.le_refl 1, fun _ => Nat.le_refl 1⟩
      (fun s op _ => step_nextSeqno_le s op) ?_ few
    intro s op ⟨kept, within⟩ timely hless
    have hgrow := step_nextSeqno_le s op
    exact ⟨kept.step op (by omega), within.step kept timely (by omega)⟩
  refine ⟨fun p hp => ⟨(kept.each p hp).seqno, fun n _ hn hne => ?_⟩, kept.outs⟩
  have hend := (number_bounds hp).2.1
  have hbelow := within.below
  have htotal := kept.total
  omega

/-- A run with two windows of one byte each. -/
theorem sent_within_window_two :
    let s := [.fillWindow, .ack ⟨8⟩ 1, .write [1, 2], .fillWindow, .ack ⟨9⟩ 0].foldl step (new 4 1 ⟨7⟩)
    ∀ p ∈ number 0 s.log, p.2.header.seqno = wrap p.1 ⟨7⟩ ∧
      ∀ n, p.1 ≤ n → n < p.1 + p.2.lengthInSequenceSpace → n ≠ 0 → n < s.edge := by
  intro s
  exact (sent_within_window (s := s) (Runs.reach_foldl .start (by decide)) (by decide)).1

/-- **An old acknowledgment delivered late opens the window again.** After a window of two bytes at
number 1 and one of a single byte at number 3 the right edge is 4; the first acknowledgment, seen once
more, lets two bytes out from number 3 on. -/
theorem late_ack_overruns :
    let s := [.fillWindow, .ack ⟨8⟩ 2, .write [1, 2], .fillWindow, .ack ⟨10⟩ 1, .ack ⟨8⟩ 2, .write [3, 4],
      .fillWindow].foldl step (new 4 1 ⟨7⟩)
    Runs.Reach step (fun _ _ => True) (new 4 1 ⟨7⟩) s ∧ s.edge = 4 ∧
      ∃ p ∈ number 0 s.log, p.1 ≤ 4 ∧ 4 < p.1 + p.2.lengthInSequenceSpace := by
  intro s
  exact ⟨Runs.reach_foldl .start (by decide), by decide, by decide⟩

end Sending

end Sponge
