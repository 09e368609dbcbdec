import Sponge.Laws.Tcp.Filling

/-!
# Laws.Tcp.Timer — the discipline of the retransmission timer

The timer's six fields are touched from three operations of the sender. `Timer.Backed k` says how they
hang together after `k` doublings, and `TCPSender.Paced k` ties them to the segments outstanding: the
timer runs exactly while there are some, and is as new otherwise. `TCPSender.Trails` says which segments
those are: the end of what was sent, from the first number not acknowledged on.

A `Timing` is a sending with a history of what happened to its timer: each expiry, with whether the
window was zero then, and each reset. The exponent `k` is read off the history (`backoff`): it is the
number of timeouts since the later of the last reset and the last timeout under a zero window.
-/

namespace Sponge

open Word64 (add add_lt)

namespace Timer

variable {initRto : UInt16} {k : Nat} {t : Timer}

/-- A timer after `k` doublings of its initial timeout that has not run out: its fields agree on `k`. -/
structure Backed (initRto : UInt16) (k : Nat) (t : Timer) : Prop where
  nonzero : 0 < initRto.toNat
  initial : t.initialRto = initRto.toNat
  shift : t.retransmissionTimeoutShift.toNat = k
  rto : t.rto = initRto.toNat * 2 ^ k
  early : t.timePass < t.rto

theorem backed_new (nonzero : initRto ≠ 0) : (new initRto.toNat).Backed initRto 0 :=
  have hpos : 0 < initRto.toNat := Nat.pos_of_ne_zero fun hc => nonzero (UInt16.toNat_inj.mp hc)
  ⟨hpos, rfl, rfl, (Nat.mul_one _).symm, hpos⟩

theorem Backed.start (h : t.Backed initRto k) : t.start.Backed initRto k :=
  ⟨h.nonzero, h.initial, h.shift, h.rto, h.early⟩

/-- Back to the initial timeout with nothing elapsed, whatever the failures counted. -/
theorem Backed.restart (h : t.Backed initRto k) (failCount : UInt16) (running : Bool) :
    Backed initRto 0 { t with
      timePass := 0, retransmissionTimeoutShift := 0, rto := t.initialRto, failCount, running } := by
  refine ⟨h.nonzero, h.initial, rfl, ?_, ?_⟩
  · rw [Nat.pow_zero, Nat.mul_one]
    exact h.initial
  · dsimp only
    rw [h.initial]
    exact h.nonzero

theorem Backed.reset (h : t.Backed initRto k) : t.reset.Backed initRto 0 := h.restart 0 t.running

theorem Backed.stop (h : t.Backed initRto k) : t.stop.Backed initRto 0 := h.restart 0 false

theorem Backed.resetRto (h : t.Backed initRto k) : t.resetRto.Backed initRto 0 :=
  h.restart t.failCount t.running

/-- A doubling below the forty-eighth does not leave the 64 bits. -/
theorem Backed.doubleRto (h : t.Backed initRto k) (few : k + 1 < 48) :
    t.doubleRto.Backed initRto (k + 1) := by
  have hshift : (t.retransmissionTimeoutShift + 1).toNat = k + 1 := by
    rw [UInt32.toNat_add, h.shift]
    exact Nat.mod_eq_of_lt (by simp; omega)
  have hpow : 2 ^ (k + 1) ≤ 2 ^ 48 := Nat.pow_le_pow_right (by decide) (by omega)
  have hless : initRto.toNat * 2 ^ (k + 1) < 2 ^ 64 :=
    calc initRto.toNat * 2 ^ (k + 1) ≤ initRto.toNat * 2 ^ 48 := Nat.mul_le_mul_left _ hpow
      _ < 2 ^ 16 * 2 ^ 48 := Nat.mul_lt_mul_of_pos_right initRto.toNat_lt (by decide)
      _ = 2 ^ 64 := by decide
  have hrto : t.doubleRto.rto = initRto.toNat * 2 ^ (k + 1) := by
    show (t.initialRto <<< (t.retransmissionTimeoutShift + 1).toNat) % 2 ^ 64 = _
    rw [hshift, Nat.shiftLeft_eq, h.initial, Nat.mod_eq_of_lt hless]
  refine ⟨h.nonzero, h.initial, hshift, hrto, ?_⟩
  rw [hrto]
  exact Nat.mul_pos h.nonzero (Nat.pow_pos (by decide))

/-- Time that does not expire the timer leaves it so. -/
theorem Backed.pass (h : t.Backed initRto k) {ms : Nat} (alive : (t.pass ms).isExpire = false) :
    (t.pass ms).Backed initRto k := by
  simp only [isExpire, decide_eq_false_iff_not, Nat.not_le] at alive
  unfold Timer.pass at alive ⊢
  split
  next hruns =>
    rw [if_pos hruns] at alive
    exact ⟨h.nonzero, h.initial, h.shift, h.rto, alive⟩
  next => exact h

theorem pass_of_stopped (stopped : t.running = false) (ms : Nat) : t.pass ms = t := by
  unfold Timer.pass
  rw [stopped]
  rfl

theorem pass_running (t : Timer) (ms : Nat) : (t.pass ms).running = t.running := by
  unfold Timer.pass
  split <;> rfl

theorem pass_same (t : Timer) (ms : Nat) :
    (t.pass ms).failCount = t.failCount ∧ (t.pass ms).rto = t.rto := by
  unfold Timer.pass
  split <;> exact ⟨rfl, rfl⟩

/-- Backing off forgets the time that has passed. -/
theorem doubleRto_pass (t : Timer) (ms : Nat) : (t.pass ms).doubleRto = t.doubleRto := by
  unfold Timer.pass
  split <;> rfl

theorem resetRto_pass (t : Timer) (ms : Nat) : (t.pass ms).resetRto = t.resetRto := by
  unfold Timer.pass
  split <;> rfl

end Timer

namespace TCPSender

variable {initRto : UInt16} {k : Nat} {s : TCPSender}

/-- A sender whose timer has been doubled `k` times: the timer runs exactly while segments are
outstanding, and is as new otherwise. -/
structure Paced (initRto : UInt16) (k : Nat) (s : TCPSender) : Prop where
  backed : s.timer.Backed initRto k
  runs : s.timer.running = true ↔ s.outstandingBuffer ≠ []
  idle : s.timer.running = false → s.timer.timePass = 0 ∧ s.timer.failCount = 0 ∧ k = 0

theorem paced_new (capacity : Nat) (nonzero : initRto ≠ 0) (isn : WrappingInt32) :
    (new capacity initRto isn).Paced initRto 0 :=
  ⟨Timer.backed_new nonzero, ⟨nofun, fun hc => absurd rfl hc⟩, fun _ => ⟨rfl, rfl, rfl⟩⟩

/-- Only the timer and the outstanding segments matter. -/
theorem Paced.congr {s' : TCPSender} (h : s.Paced initRto k) (timer : s'.timer = s.timer)
    (outstanding : s'.outstandingBuffer = s.outstandingBuffer) : s'.Paced initRto k := by
  refine ⟨timer ▸ h.backed, ?_, timer ▸ h.idle⟩
  rw [timer, outstanding]
  exact h.runs

/-- A stopped timer is the initial one. -/
theorem Paced.rto_of_stopped (h : s.Paced initRto k) (stopped : s.timer.running = false) :
    s.timer.rto = initRto.toNat := by
  rw [h.backed.rto, (h.idle stopped).2.2, Nat.pow_zero, Nat.mul_one]

/-! ## Sending -/

/-- Sending starts the timer, and does not touch it otherwise. -/
theorem send_timer (s : TCPSender) (data : Bytes) (fin : Bool) :
    (s.send data fin).timer = { s.timer with running := true } := by
  show (if s.timer.running then s.timer else s.timer.start) = _
  split
  next hruns => rw [← hruns]
  next => rfl

theorem Paced.send (h : s.Paced initRto k) (data : Bytes) (fin : Bool) :
    (s.send data fin).Paced initRto k := by
  refine ⟨?_, ?_, ?_⟩
  · rw [send_timer]
    exact h.backed.start
  · rw [send_timer]
    have hsome : (s.send data fin).outstandingBuffer ≠ [] :=
      List.append_ne_nil_of_right_ne_nil _ (List.cons_ne_nil _ _)
    exact ⟨fun _ => hsome, fun _ => rfl⟩
  · rw [send_timer]
    nofun

theorem Paced.fillWindow (h : s.Paced initRto k) (finLast : s.FinLast) : s.fillWindow.Paced initRto k := by
  obtain ⟨-, -, -, hpaced⟩ := fillLoop_rule (P := fun _ s => s.FinLast ∧ s.Paced initRto k) (fun _ _ h => h.1)
    (fun _ _ data fin h _ hsend => ⟨send_finLast hsend, h.2.send data fin⟩) (s.fillBound + 1) []
    ⟨finLast, h⟩
  exact hpaced

/-- Filling the window leaves the timer's counters alone. -/
theorem fillWindow_timer (finLast : s.FinLast) :
    ∃ running, s.fillWindow.timer = { s.timer with running } := by
  obtain ⟨-, -, -, htimer⟩ := fillLoop_rule
    (P := fun _ s' => s'.FinLast ∧ ∃ running, s'.timer = { s.timer with running }) (fun _ _ h => h.1)
    (fun _ s' data fin h _ hsend => by
      obtain ⟨-, running, htimer⟩ := h
      refine ⟨send_finLast hsend, true, ?_⟩
      rw [send_timer, htimer])
    (s.fillBound + 1) [] ⟨finLast, s.timer.running, rfl⟩
  exact htimer

/-! ## Acknowledgments -/

/-- What the acknowledgment loop answers for an acknowledgment. -/
def acked (s : TCPSender) (absAckno : Nat) : List TCPSegment × Nat × Nat × Bool :=
  ackLoop s.isn absAckno s.outstandingBuffer s.ackedNext s.bytesInFlight false

/-- An accepted acknowledgment resets the timer: it is news, or it leaves nothing outstanding. -/
def Restarts (s : TCPSender) (absAckno : Nat) : Prop :=
  absAckno ≤ s.nextSeqno ∧ ((s.acked absAckno).1 = [] ∨ (s.acked absAckno).2.2.2 = true)

instance (s : TCPSender) (absAckno : Nat) : Decidable (s.Restarts absAckno) :=
  inferInstanceAs (Decidable (_ ∧ _))

theorem acceptAck_outstanding (s : TCPSender) (absAckno : Nat) (windowSize : UInt16) :
    (s.acceptAck absAckno windowSize).outstandingBuffer = (s.acked absAckno).1 := rfl

/-- What an accepted acknowledgment does to the timer. -/
theorem acceptAck_timer (s : TCPSender) (absAckno : Nat) (windowSize : UInt16) :
    (s.acceptAck absAckno windowSize).timer =
      if (s.acked absAckno).1 = [] then s.timer.stop
      else if (s.acked absAckno).2.2.2 then s.timer.reset else s.timer := by
  show (if (s.acked absAckno).2.2.2 then
    (if (s.acked absAckno).1.isEmpty then s.timer.stop else s.timer).reset
    else if (s.acked absAckno).1.isEmpty then s.timer.stop else s.timer) = _
  cases (s.acked absAckno).1 with
  | nil => split <;> rfl
  | cons head rest => rfl

theorem Paced.acceptAck (h : s.Paced initRto k) {absAckno : Nat} (sent : absAckno ≤ s.nextSeqno)
    (windowSize : UInt16) :
    (s.acceptAck absAckno windowSize).Paced initRto (if s.Restarts absAckno then 0 else k) := by
  have hsuffix : (s.acked absAckno).1 <:+ s.outstandingBuffer := ackLoop_suffix _ _ _ _ _ _
  have hkept : (s.acked absAckno).1 ≠ [] → s.timer.running = true := by
    intro hsome
    refine h.runs.mpr fun hnil => hsome ?_
    rw [hnil] at hsuffix
    exact List.suffix_nil.mp hsuffix
  by_cases hnone : (s.acked absAckno).1 = []
  · rw [if_pos ⟨sent, .inl hnone⟩]
    refine ⟨?_, ?_, ?_⟩ <;> rw [acceptAck_timer, if_pos hnone]
    · exact h.backed.stop
    · rw [acceptAck_outstanding, hnone]
      exact ⟨nofun, fun hc => absurd rfl hc⟩
    · exact fun _ => ⟨rfl, rfl, rfl⟩
  · have hruns := hkept hnone
    by_cases hnews : (s.acked absAckno).2.2.2 = true
    · rw [if_pos ⟨sent, .inr hnews⟩]
      refine ⟨?_, ?_, ?_⟩ <;> rw [acceptAck_timer, if_neg hnone, if_pos hnews]
      · exact h.backed.reset
      · exact ⟨fun _ => hnone, fun _ => hruns⟩
      · exact fun hc => absurd (hruns.symm.trans hc) Bool.noConfusion
    · rw [if_neg fun hc => hc.2.elim hnone hnews]
      refine ⟨?_, ?_, ?_⟩ <;> rw [acceptAck_timer, if_neg hnone, if_neg hnews]
      · exact h.backed
      · exact ⟨fun _ => hnone, fun _ => hruns⟩
      · exact fun hc => absurd (hruns.symm.trans hc) Bool.noConfusion

theorem Paced.ackReceived (h : s.Paced initRto k) (finLast : s.FinLast) (ackno : WrappingInt32)
    (windowSize : UInt16) : (s.ackReceived ackno windowSize).Paced initRto
      (if s.Restarts (unwrap ackno s.isn s.ackedNext) then 0 else k) := by
  rw [ackReceived_eq]
  generalize unwrap ackno s.isn s.ackedNext = absAckno
  by_cases hbeyond : s.nextSeqno < absAckno
  · rw [if_pos hbeyond, if_neg fun hc => absurd hc.1 (Nat.not_le_of_lt hbeyond)]
    exact h.congr rfl rfl
  · rw [if_neg hbeyond]
    exact (h.acceptAck (Nat.le_of_not_lt hbeyond) windowSize).fillWindow finLast

/-! ## Ticks -/

/-- The timer goes off in a tick. -/
def Expires (s : TCPSender) (ms : Nat) : Prop := (s.timer.pass ms).isExpire = true

instance (s : TCPSender) (ms : Nat) : Decidable (s.Expires ms) := inferInstanceAs (Decidable (_ = _))

/-- A timer that does not run does not go off. -/
theorem Paced.runs_of_expires (h : s.Paced initRto k) {ms : Nat} (expires : s.Expires ms) :
    s.timer.running = true := by
  by_contra hstopped
  have hstopped := eq_false_of_ne_true hstopped
  have hearly := h.backed.early
  unfold Expires at expires
  rw [Timer.pass_of_stopped hstopped] at expires
  simp only [Timer.isExpire, decide_eq_true_eq] at expires
  omega

/-- The oldest segment goes out again, and the timer is as given. -/
def sendAgain (s : TCPSender) (timer : Timer) : TCPSender :=
  { s with timer, segmentsOut := s.segmentsOut ++ s.outstandingBuffer.head?.toList }

/-- What a tick does: it lets time pass, or it sends the oldest segment again and backs off, which
under a zero window means to start over. -/
theorem tick_cases (s : TCPSender) (ms : Nat) :
    ¬s.Expires ms ∧ s.tick ms = { s with timer := s.timer.pass ms } ∨
      s.Expires ms ∧ s.receivedWindowSize = 0 ∧ s.tick ms = s.sendAgain s.timer.resetRto ∨
      s.Expires ms ∧ s.receivedWindowSize ≠ 0 ∧ s.tick ms = s.sendAgain s.timer.doubleRto := by
  unfold tick Expires
  dsimp only
  rw [Timer.doubleRto_pass, Timer.resetRto_pass]
  by_cases hexp : (s.timer.pass ms).isExpire = true
  · rw [if_pos hexp]
    by_cases hzero : s.receivedWindowSize = 0
    · rw [if_neg (not_not.mpr hzero)]
      exact .inr (.inl ⟨hexp, hzero, rfl⟩)
    · rw [if_pos hzero]
      exact .inr (.inr ⟨hexp, hzero, rfl⟩)
  · rw [if_neg hexp]
    exact .inl ⟨hexp, rfl⟩

/-- The exponent after a tick. -/
def backoffAfter (s : TCPSender) (k ms : Nat) : Nat :=
  if s.Expires ms then if s.receivedWindowSize = 0 then 0 else k + 1 else k

/-- A timer that keeps running may be set in any way. -/
theorem Paced.set {s' : TCPSender} {k' : Nat} (h : s.Paced initRto k) (running : s.timer.running = true)
    (backed : s'.timer.Backed initRto k') (runs : s'.timer.running = s.timer.running)
    (outstanding : s'.outstandingBuffer = s.outstandingBuffer) : s'.Paced initRto k' := by
  refine ⟨backed, ?_, fun hstopped => ?_⟩
  · rw [runs, outstanding]
    exact h.runs
  · rw [runs, running] at hstopped
    cases hstopped

/-- While the timer stands still a tick of any length changes nothing. -/
theorem Paced.tick_of_stopped (h : s.Paced initRto k) (stopped : s.timer.running = false) (ms : Nat) :
    s.tick ms = s := by
  have hquiet : ¬s.Expires ms := fun hc => by
    rw [h.runs_of_expires hc] at stopped
    cases stopped
  rcases s.tick_cases ms with ⟨-, heq⟩ | ⟨hc, -⟩ | ⟨hc, -⟩
  · rw [heq, Timer.pass_of_stopped stopped]
  · exact absurd hc hquiet
  · exact absurd hc hquiet

/-- **A tick keeps the pace**, below the forty-eighth doubling. -/
theorem Paced.tick (h : s.Paced initRto k) {ms : Nat} (few : s.backoffAfter k ms < 48) :
    (s.tick ms).Paced initRto (s.backoffAfter k ms) := by
  unfold backoffAfter at few ⊢
  rcases s.tick_cases ms with ⟨hexp, heq⟩ | ⟨hexp, hzero, heq⟩ | ⟨hexp, hzero, heq⟩
  · rw [if_neg hexp]
    cases hruns : s.timer.running with
    | false =>
      rw [h.tick_of_stopped hruns]
      exact h
    | true =>
      rw [heq]
      exact h.set hruns (h.backed.pass (eq_false_of_ne_true hexp)) (s.timer.pass_running ms) rfl
  · rw [if_pos hexp, if_pos hzero, heq]
    exact h.set (h.runs_of_expires hexp) h.backed.resetRto rfl rfl
  · rw [if_pos hexp, if_neg hzero] at few ⊢
    rw [heq]
    exact h.set (h.runs_of_expires hexp) (h.backed.doubleRto few) rfl rfl

/-- What a tick sends is the oldest outstanding segment, once. -/
theorem tick_again (s : TCPSender) (ms : Nat) : ∃ again,
    (s.tick ms).segmentsOut = s.segmentsOut ++ again ∧ again.length ≤ 1 ∧
      ∀ seg ∈ again, s.outstandingBuffer.head? = some seg := by
  have hone : s.outstandingBuffer.head?.toList.length ≤ 1 ∧
      ∀ seg ∈ s.outstandingBuffer.head?.toList, s.outstandingBuffer.head? = some seg := by
    cases s.outstandingBuffer.head? with
    | none => exact ⟨Nat.zero_le _, fun _ hseg => absurd hseg List.not_mem_nil⟩
    | some seg => exact ⟨Nat.le_refl _, fun _ hseg => congrArg some (List.mem_singleton.mp hseg).symm⟩
  rcases s.tick_cases ms with ⟨-, heq⟩ | ⟨-, -, heq⟩ | ⟨-, -, heq⟩
  · rw [heq]
    exact ⟨[], (List.append_nil _).symm, Nat.zero_le _, fun _ hseg => absurd hseg List.not_mem_nil⟩
  · rw [heq]
    exact ⟨_, rfl, hone⟩
  · rw [heq]
    exact ⟨_, rfl, hone⟩

/-! ## The segments outstanding -/

/-- The outstanding segments are the end of the log, from the first number not acknowledged on. -/
structure Trails (log : List TCPSegment) (s : TCPSender) : Prop where
  finLast : s.FinLast
  held : ∃ acked, log = acked ++ s.outstandingBuffer ∧ s.ackedNext = seqLen acked

variable {log : List TCPSegment}

theorem trails_new (capacity : Nat) (retxTimeout : UInt16) (isn : WrappingInt32) :
    (new capacity retxTimeout isn).Trails [] :=
  ⟨nofun, [], rfl, rfl⟩

theorem Trails.send (h : s.Trails log) {data : Bytes} {fin : Bool} (sendable : s.Sendable data fin) :
    (s.send data fin).Trails (log ++ [s.fresh data fin]) := by
  obtain ⟨acked, hlog, hacked⟩ := h.held
  refine ⟨send_finLast sendable, acked, ?_, hacked⟩
  rw [hlog, List.append_assoc]
  rfl

theorem Trails.fillWindow (h : s.Trails log) :
    ∃ new, s.fillWindow.segmentsOut = s.segmentsOut ++ new ∧ s.fillWindow.Trails (log ++ new) :=
  fillLoop_rule (P := fun log s => s.Trails log) (fun _ _ h => h.finLast)
    (fun _ _ _ _ h _ hsend => h.send hsend) _ _ h

/-- What an acknowledgment drops, it counts: this needs nothing of the numbers. -/
theorem Trails.acceptAck (h : s.Trails log) (absAckno : Nat) (windowSize : UInt16) :
    (s.acceptAck absAckno windowSize).Trails log := by
  obtain ⟨acked, hlog, hacked⟩ := h.held
  obtain ⟨popped, hrest, hcounted, -⟩ :=
    ackLoop_spec s.isn absAckno s.outstandingBuffer s.ackedNext s.bytesInFlight false
  refine ⟨h.finLast, acked ++ popped, ?_, ?_⟩
  · show log = acked ++ popped ++
      (ackLoop s.isn absAckno s.outstandingBuffer s.ackedNext s.bytesInFlight false).1
    rw [List.append_assoc, ← hrest, hlog]
  · show (ackLoop s.isn absAckno s.outstandingBuffer s.ackedNext s.bytesInFlight false).2.1 = _
    rw [hcounted, hacked, seqLen_append]

/-- The oldest outstanding segment is the one first sent at the first number not acknowledged. -/
theorem Trails.oldest (h : s.Trails log) {seg : TCPSegment}
    (oldest : s.outstandingBuffer.head? = some seg) : (s.ackedNext, seg) ∈ number 0 log := by
  obtain ⟨acked, hlog, hacked⟩ := h.held
  obtain ⟨rest, hrest⟩ := List.head?_eq_some_iff.mp oldest
  rw [hlog, number_append, Nat.zero_add, ← hacked, hrest]
  exact List.mem_append_right _ List.mem_cons_self

end TCPSender

namespace Sending

variable {s : Sending} {capacity : Nat} {retxTimeout : UInt16} {isn : WrappingInt32}

theorem record_trails {filling : TCPSender} (h : filling.Trails s.log)
    (same : filling.segmentsOut = s.sender.segmentsOut) :
    filling.fillWindow.Trails (s.record filling.fillWindow).log := by
  obtain ⟨new, hnew, htrails⟩ := h.fillWindow
  rw [record_log (same ▸ hnew)]
  exact htrails

theorem trails_step (h : s.sender.Trails s.log) (op : Op) : (s.step op).sender.Trails (s.step op).log := by
  cases op with
  | write data => exact ⟨h.finLast.write data, h.held⟩
  | endInput => exact ⟨h.finLast.endInput, h.held⟩
  | fillWindow => exact record_trails h rfl
  | ack ackno windowSize =>
    show (s.sender.ackReceived ackno windowSize).Trails (s.record (s.sender.ackReceived ackno windowSize)).log
    rw [TCPSender.ackReceived_eq]
    split
    · dsimp only [record]
      rw [List.drop_length, List.append_nil]
      exact ⟨h.finLast, h.held⟩
    · exact record_trails (h.acceptAck _ windowSize) rfl
  | tick ms =>
    show (s.sender.tick ms).Trails s.log
    rw [TCPSender.tick_frame]
    exact ⟨h.finLast, h.held⟩
  | sendEmpty => exact ⟨h.finLast, h.held⟩

theorem trails_of_run {ok : Sending → Op → Prop}
    (run : Runs.Reach step ok (new capacity retxTimeout isn) s) : s.sender.Trails s.log :=
  run.invariant (fun s => s.sender.Trails s.log) (TCPSender.trails_new capacity retxTimeout isn)
    fun _ op h _ => trails_step h op

end Sending

/-! ## Whole runs -/

/-- What happens to a timer: it runs out, under a zero window or an open one, or it is reset. -/
inductive TimerEvent
  | timeout (zeroWindow : Bool)
  | reset
deriving DecidableEq

/-- A sending with the history of its timer, newest event first. -/
structure Timing where
  sending : Sending
  history : List TimerEvent

namespace Timing

open Sending (Op)

def new (capacity : Nat) (retxTimeout : UInt16) (isn : WrappingInt32) : Timing :=
  ⟨Sending.new capacity retxTimeout isn, []⟩

/-- What an operation is to the timer of a sender, if anything. -/
def event (s : TCPSender) : Op → Option TimerEvent
  | .ack ackno _ => if s.Restarts (unwrap ackno s.isn s.ackedNext) then some .reset else none
  | .tick ms => if s.Expires ms then some (.timeout (s.receivedWindowSize = 0)) else none
  | .write _ | .endInput | .fillWindow | .sendEmpty => none

def step (t : Timing) (op : Op) : Timing :=
  ⟨t.sending.step op, (event t.sending.sender op).toList ++ t.history⟩

/-- The timeouts in a row: those since the last reset. -/
def timeoutsInARow (history : List TimerEvent) : Nat :=
  (history.takeWhile fun event => event ≠ .reset).length

/-- The timeouts since the later of the last reset and the last timeout under a zero window. -/
def backoff (history : List TimerEvent) : Nat :=
  (history.takeWhile fun event => event = .timeout false).length

/-- An operation leaves fewer than forty-eight timeouts in a row. -/
def Few (t : Timing) (op : Op) : Prop := timeoutsInARow (t.step op).history < 48

instance (t : Timing) (op : Op) : Decidable (Few t op) := inferInstanceAs (Decidable (_ < _))

theorem backoff_le (history : List TimerEvent) : backoff history ≤ timeoutsInARow history := by
  induction history with
  | nil => exact Nat.le_refl _
  | cons event history ih =>
    unfold backoff timeoutsInARow at *
    rcases event with (_ | _) | _ <;> simp_all

/-- The exponent an operation leaves. -/
theorem backoff_step (t : Timing) (op : Op) :
    backoff (t.step op).history =
      match op with
      | .ack ackno _ =>
        if t.sending.sender.Restarts (unwrap ackno t.sending.sender.isn t.sending.sender.ackedNext) then 0
        else backoff t.history
      | .tick ms => t.sending.sender.backoffAfter (backoff t.history) ms
      | _ => backoff t.history := by
  cases op with
  | write data => rfl
  | endInput => rfl
  | fillWindow => rfl
  | sendEmpty => rfl
  | ack ackno windowSize =>
    dsimp only [step, event]
    split <;> rfl
  | tick ms =>
    dsimp only [step, event, TCPSender.backoffAfter]
    split
    · by_cases hzero : t.sending.sender.receivedWindowSize = 0
      · rw [if_pos hzero, decide_eq_true hzero]
        rfl
      · rw [if_neg hzero, decide_eq_false hzero]
        rfl
    · rfl

variable {t : Timing} {capacity : Nat} {retxTimeout : UInt16} {isn : WrappingInt32}

/-- The sender of a timing keeps the pace its history says. -/
def Paced (retxTimeout : UInt16) (t : Timing) : Prop :=
  t.sending.sender.Fillable ∧ t.sending.sender.Paced retxTimeout (backoff t.history)

/-- **Every operation keeps the pace.** -/
theorem Paced.step (h : t.Paced retxTimeout) {op : Op} (few : Few t op) :
    (t.step op).Paced retxTimeout := by
  obtain ⟨hfill, hpaced⟩ := h
  have hfew : backoff (t.step op).history < 48 := Nat.lt_of_le_of_lt (backoff_le _) few
  refine ⟨Sending.fillable_step hfill op, ?_⟩
  rw [backoff_step] at hfew ⊢
  cases op with
  | write data => exact hpaced.congr rfl rfl
  | endInput => exact hpaced.congr rfl rfl
  | fillWindow => exact hpaced.fillWindow hfill.finLast
  | ack ackno windowSize => exact hpaced.ackReceived hfill.finLast ackno windowSize
  | tick ms => exact hpaced.tick hfew
  | sendEmpty => exact hpaced.congr rfl rfl

theorem paced_of_run (nonzero : retxTimeout ≠ 0)
    (run : Runs.Reach step Few (new capacity retxTimeout isn) t) : t.Paced retxTimeout :=
  run.invariant (Paced retxTimeout)
    ⟨TCPSender.fillable_new capacity retxTimeout isn, TCPSender.paced_new capacity nonzero isn⟩
    fun _ _ h few => h.step few

/-- **The discipline of the retransmission timer**, after every operation of every run with a timeout
that is not zero and fewer than forty-eight timeouts in a row. The timer runs exactly while segments are
outstanding. While it stands still it is as new, and no tick sends or changes anything. While it runs it
is not due, and its timeout is the initial one doubled for each timeout since the later of the last reset
and the last timeout under a zero window. A tick queues at most one segment: the oldest outstanding one,
which is the one first sent at the first number not acknowledged. -/
theorem timer_discipline (nonzero : retxTimeout ≠ 0)
    (run : Runs.Reach step Few (new capacity retxTimeout isn) t) :
    let s := t.sending.sender
    (s.timer.running = true ↔ s.outstandingBuffer ≠ []) ∧
      (s.timer.running = false → s.timer.timePass = 0 ∧ s.timer.failCount = 0 ∧
        s.timer.rto = retxTimeout.toNat ∧ ∀ ms, s.tick ms = s) ∧
      (s.timer.running = true → s.timer.timePass < s.timer.rto ∧
        s.timer.rto = retxTimeout.toNat * 2 ^ backoff t.history) ∧
      ∀ ms, ∃ again, (s.tick ms).segmentsOut = s.segmentsOut ++ again ∧ again.length ≤ 1 ∧
        ∀ seg ∈ again, s.outstandingBuffer.head? = some seg ∧
          (s.ackedNext, seg) ∈ number 0 t.sending.log := by
  obtain ⟨-, hpaced⟩ := paced_of_run nonzero run
  refine ⟨hpaced.runs, fun hstopped => ?_, fun _ => ⟨hpaced.backed.early, hpaced.backed.rto⟩, fun ms => ?_⟩
  · obtain ⟨htime, hfails, -⟩ := hpaced.idle hstopped
    exact ⟨htime, hfails, hpaced.rto_of_stopped hstopped, hpaced.tick_of_stopped hstopped⟩
  · obtain ⟨again, hqueue, hone, hagain⟩ := t.sending.sender.tick_again ms
    refine ⟨again, hqueue, hone, fun seg hseg => ⟨hagain seg hseg, ?_⟩⟩
    have hrun : Runs.Reach Sending.step (fun _ _ => True) (Sending.new capacity retxTimeout isn) t.sending :=
      run.map Timing.sending (fun _ _ => rfl) fun _ _ _ => trivial
    exact (Sending.trails_of_run hrun).oldest (hagain seg hseg)

/-- A timeout under an open window, one under a zero window, and an acknowledgment of new data. -/
theorem timer_discipline_two :
    let t := [.fillWindow, .tick 3, .ack ⟨8⟩ 0, .write [1, 2], .fillWindow, .tick 3, .ack ⟨9⟩ 4, .tick 2,
      .tick 3].foldl step (new 4 3 ⟨7⟩)
    t.sending.sender.timer.rto = 3 * 2 ^ 1 ∧ t.sending.sender.timer.timePass < 3 * 2 ^ 1 := by
  intro t
  obtain ⟨-, -, hruns, -⟩ := timer_discipline (t := t) (show (3 : UInt16) ≠ 0 by decide)
    (Runs.reach_foldl .start (by decide +kernel))
  obtain ⟨hearly, hrto⟩ := hruns (by decide +kernel)
  have hback : backoff t.history = 1 := by decide +kernel
  rw [hrto, hback] at hearly
  exact ⟨hback ▸ hrto, hearly⟩

end Timing

end Sponge
