import Sponge.Laws.Tcp.Timer

/-!
# Laws.Tcp.Acks — acknowledgments without news

Two kinds of acknowledgment bring nothing: one not beyond the greatest accepted before, and one of
numbers never sent. Neither should leave a trace.

`ack_received` asks whether an acknowledgment is news by comparing it with the oldest outstanding
segment, and not with the greatest acknowledgment so far. An acknowledgment inside that segment is
therefore news each time it comes, and shows unless the timer is fresh. Everywhere else an old one leaves
the timer alone: `Ahead` says that the greatest acknowledgment accepted never covers the oldest
outstanding segment.

An acknowledgment of numbers never sent is ignored, but its window is noted before that is found out.
The window noted is read in one place, when the timer expires, and only for being zero. `Alike` relates
two senders that differ in that window, and agree on its being zero or will never see the timer expire
again (`Finished`). Any other sender can be brought to an expiry (`Poised.expires`, `Poised.can_send`), and
that tells the two windows apart.
-/

namespace Sponge

namespace TCPSender

variable {s s' : TCPSender}

/-! ## Old acknowledgments -/

/-- The acknowledgment loop stops before the first segment it does not cover. -/
theorem ackLoop_stops (isn : WrappingInt32) (absAckno : Nat) {l : List TCPSegment} {a : Nat}
    (bytesInFlight : Nat) (newData : Bool)
    (numbered : ∀ p ∈ number a l, p.2.header.seqno = wrap p.1 isn) (inRange : a + seqLen l < 2 ^ 64)
    (long : ∀ seg ∈ l, 0 < seg.lengthInSequenceSpace) :
    let out := ackLoop isn absAckno l a bytesInFlight newData
    ∀ head, out.1.head? = some head → absAckno < out.2.1 + head.lengthInSequenceSpace := by
  induction l generalizing a bytesInFlight newData with
  | nil => exact fun _ hc => nomatch hc
  | cons first rest ih =>
    rw [seqLen_cons] at inRange
    have hfirst : unwrap first.header.seqno isn a = a := unwrap_head numbered (by omega)
    have hlong := long first List.mem_cons_self
    rw [ackLoop]
    dsimp only
    rw [hfirst]
    split
    · split
      · exact ih _ _ (fun p hp => numbered p (List.mem_cons_of_mem _ hp)) (by omega)
          fun seg hseg => long seg (List.mem_cons_of_mem _ hseg)
      · intro head hhead
        cases hhead
        dsimp only
        omega
    · intro head hhead
      cases hhead
      dsimp only
      omega

/-- The greatest acknowledgment accepted covers nothing that is outstanding. -/
structure Ahead (greatest : Nat) (s : TCPSender) : Prop where
  sent : greatest ≤ s.nextSeqno
  long : ∀ seg ∈ s.outstandingBuffer, 0 < seg.lengthInSequenceSpace
  inside : ∀ head, s.outstandingBuffer.head? = some head →
    greatest < s.ackedNext + head.lengthInSequenceSpace

variable {T : Bytes} {isn : WrappingInt32} {log : List TCPSegment} {greatest : Nat}

theorem Ahead.congr (h : s.Ahead greatest) (next : s'.nextSeqno = s.nextSeqno)
    (outstanding : s'.outstandingBuffer = s.outstandingBuffer) (acked : s'.ackedNext = s.ackedNext) :
    s'.Ahead greatest := by
  refine ⟨next ▸ h.sent, ?_, ?_⟩
  · rw [outstanding]
    exact h.long
  · rw [outstanding, acked]
    exact h.inside

theorem Ahead.send (h : s.Ahead greatest) (accounts : Accounts T isn log s) {data : Bytes} {fin : Bool}
    (sendable : s.Sendable data fin) : (s.send data fin).Ahead greatest := by
  have hpos := sendable.length_pos
  refine ⟨Nat.le_add_right_of_le h.sent, ?_, ?_⟩
  · intro seg hseg
    rcases List.mem_append.mp hseg with hseg | hseg
    · exact h.long seg hseg
    · rw [List.mem_singleton.mp hseg]
      exact hpos
  · intro head hhead
    change (s.outstandingBuffer ++ [s.fresh data fin]).head? = some head at hhead
    show greatest < s.ackedNext + _
    cases hold : s.outstandingBuffer with
    | nil =>
      -- the new segment is the oldest, and starts behind everything acknowledged
      rw [hold] at hhead
      cases hhead
      have hsent := h.sent
      have hlen := accounts.outstanding_seqLen
      have hflight := accounts.flight
      rw [hold, seqLen_nil] at hlen
      omega
    | cons first rest =>
      refine h.inside head ?_
      rw [hold] at hhead ⊢
      exact hhead

theorem Ahead.fillWindow (h : s.Ahead greatest) (accounts : Accounts T isn log s) :
    s.fillWindow.Ahead greatest := by
  obtain ⟨-, -, -, hahead⟩ := fillLoop_rule (P := fun log s => Accounts T isn log s ∧ s.Ahead greatest)
    (fun _ _ h => h.1.finLast) (fun _ _ _ _ h hfin hsend => ⟨h.1.send hfin hsend, h.2.send h.1 hsend⟩)
    (s.fillBound + 1) log ⟨accounts, h⟩
  exact hahead

/-- Accepting an acknowledgment drops what it covers. -/
theorem Ahead.acceptAck (h : s.Ahead greatest) (accounts : Accounts T isn log s)
    (inRange : s.nextSeqno < 2 ^ 64) {absAckno : Nat} (sent : absAckno ≤ s.nextSeqno)
    (windowSize : UInt16) : (s.acceptAck absAckno windowSize).Ahead (max greatest absAckno) := by
  have hlen := accounts.outstanding_seqLen
  have hflight := accounts.flight
  have hstops := ackLoop_stops s.isn absAckno s.bytesInFlight false
    (accounts.isn_eq ▸ accounts.outstanding_numbered) (by omega) h.long
  obtain ⟨⟨popped, hpopped, hacked, -⟩, -⟩ := accounts.acceptAck_cases inRange absAckno windowSize
  have hnext := s.acceptAck_nextSeqno absAckno windowSize
  change ∀ head, (s.acceptAck absAckno windowSize).outstandingBuffer.head? = some head →
    absAckno < (s.acceptAck absAckno windowSize).ackedNext + head.lengthInSequenceSpace at hstops
  generalize s.acceptAck absAckno windowSize = out at *
  refine ⟨?_, fun seg hseg => h.long seg ?_, fun head hhead => Nat.max_lt.mpr ⟨?_, hstops head hhead⟩⟩
  · rw [hnext]
    exact Nat.max_le.mpr ⟨h.sent, sent⟩
  · rw [hpopped]
    exact List.mem_append_right _ hseg
  · cases popped with
    | nil =>
      rw [seqLen_nil, Nat.add_zero] at hacked
      rw [hacked]
      refine h.inside head ?_
      rw [hpopped]
      exact hhead
    | cons first popped =>
      -- the segment that was the oldest is gone, with everything acknowledged before
      have hold := h.inside first (by rw [hpopped]; rfl)
      rw [seqLen_cons] at hacked
      omega

/-- An acknowledgment of nothing outstanding changes no book. -/
theorem acked_of_old (accounts : Accounts T isn log s) (inRange : s.nextSeqno < 2 ^ 64) {absAckno : Nat}
    (old : absAckno ≤ s.ackedNext) :
    s.acked absAckno = (s.outstandingBuffer, s.ackedNext, s.bytesInFlight, false) := by
  have hnumbered := accounts.outstanding_numbered
  have hflight := accounts.flight
  rw [acked, accounts.isn_eq]
  cases hout : s.outstandingBuffer with
  | nil => rfl
  | cons head rest =>
    rw [hout] at hnumbered
    rw [ackLoop, unwrap_head hnumbered (by omega), if_neg (Nat.not_lt_of_le old)]

/-- An acknowledgment inside the oldest outstanding segment drops nothing, and is taken for news. -/
theorem acked_of_inside (accounts : Accounts T isn log s) (inRange : s.nextSeqno < 2 ^ 64)
    {absAckno : Nat} {oldest : TCPSegment} (first : s.outstandingBuffer.head? = some oldest)
    (above : s.ackedNext < absAckno) (below : absAckno < s.ackedNext + oldest.lengthInSequenceSpace) :
    s.acked absAckno = (s.outstandingBuffer, s.ackedNext, s.bytesInFlight, true) := by
  have hnumbered := accounts.outstanding_numbered
  have hflight := accounts.flight
  obtain ⟨rest, hout⟩ := List.head?_eq_some_iff.mp first
  rw [acked, accounts.isn_eq, hout]
  rw [hout] at hnumbered
  rw [ackLoop, unwrap_head hnumbered (by omega), if_pos above, if_neg (by omega)]

/-- The counters of the timer that an acknowledgment could restart. -/
def SameTimes (t t' : Timer) : Prop :=
  t'.timePass = t.timePass ∧ t'.rto = t.rto ∧ t'.failCount = t.failCount

theorem ackReceived_sameTimes (accounts : Accounts T isn log s) (inRange : s.nextSeqno < 2 ^ 64)
    (some : s.outstandingBuffer ≠ []) {ackno : WrappingInt32}
    (old : unwrap ackno s.isn s.ackedNext ≤ s.ackedNext) (windowSize : UInt16) :
    SameTimes s.timer (s.ackReceived ackno windowSize).timer := by
  rw [ackReceived_eq]
  generalize unwrap ackno s.isn s.ackedNext = absAckno at *
  split
  · exact ⟨rfl, rfl, rfl⟩
  · have hsame := acked_of_old accounts inRange old
    have htimer : (s.acceptAck absAckno windowSize).timer = s.timer := by
      rw [acceptAck_timer, hsame, if_neg some, if_neg Bool.false_ne_true]
    obtain ⟨running, hfilled⟩ := fillWindow_timer (s := s.acceptAck absAckno windowSize) accounts.finLast
    rw [hfilled, htimer]
    exact ⟨rfl, rfl, rfl⟩

/-- Taken for news, an acknowledgment sets the timer back. -/
theorem ackReceived_resets (accounts : Accounts T isn log s) (inRange : s.nextSeqno < 2 ^ 64)
    {ackno : WrappingInt32} {oldest : TCPSegment} (first : s.outstandingBuffer.head? = some oldest)
    (sent : unwrap ackno s.isn s.ackedNext ≤ s.nextSeqno)
    (above : s.ackedNext < unwrap ackno s.isn s.ackedNext)
    (below : unwrap ackno s.isn s.ackedNext < s.ackedNext + oldest.lengthInSequenceSpace)
    (windowSize : UInt16) : SameTimes s.timer.reset (s.ackReceived ackno windowSize).timer := by
  rw [ackReceived_eq, if_neg (Nat.not_lt_of_le sent)]
  generalize unwrap ackno s.isn s.ackedNext = absAckno at *
  have hnews := acked_of_inside accounts inRange first above below
  have hsome : s.outstandingBuffer ≠ [] := fun hnil => by
    rw [hnil] at first
    cases first
  have htimer : (s.acceptAck absAckno windowSize).timer = s.timer.reset := by
    rw [acceptAck_timer, hnews, if_neg hsome, if_pos rfl]
  obtain ⟨running, hfilled⟩ := fillWindow_timer (s := s.acceptAck absAckno windowSize) accounts.finLast
  rw [hfilled, htimer]
  exact ⟨rfl, rfl, rfl⟩

/-- A timer with nothing elapsed, the initial timeout and no failure counted. -/
def Fresh (t : Timer) : Prop := t.timePass = 0 ∧ t.rto = t.initialRto ∧ t.failCount = 0

instance (t : Timer) : Decidable (Fresh t) := inferInstanceAs (Decidable (_ ∧ _))

/-- Setting a timer back shows unless it is fresh. -/
theorem sameTimes_of_reset {t t' : Timer} (reset : SameTimes t.reset t') : SameTimes t t' ↔ Fresh t := by
  obtain ⟨hpass, hrto, hfail⟩ := reset
  rw [SameTimes, hpass, hrto, hfail]
  exact ⟨fun h => ⟨h.1.symm, h.2.1.symm, h.2.2.symm⟩, fun h => ⟨h.1.symm, h.2.1.symm, h.2.2.symm⟩⟩

end TCPSender

/-- A sending with the greatest absolute acknowledgment number accepted so far. -/
structure Acking where
  sending : Sending
  greatest : Nat

namespace Acking

open Sending (Op)

def new (capacity : Nat) (retxTimeout : UInt16) (isn : WrappingInt32) : Acking :=
  ⟨Sending.new capacity retxTimeout isn, 0⟩

/-- An acknowledgment is accepted unless it is beyond what was sent. -/
def step (a : Acking) (op : Op) : Acking where
  sending := a.sending.step op
  greatest :=
    match op with
    | .ack ackno _ =>
      if a.sending.absAckno ackno ≤ a.sending.sender.nextSeqno then
        max a.greatest (a.sending.absAckno ackno)
      else a.greatest
    | .write _ | .endInput | .fillWindow | .tick _ | .sendEmpty => a.greatest

variable {a : Acking} {capacity : Nat} {retxTimeout : UInt16} {isn : WrappingInt32}

theorem ahead_step (h : a.sending.sender.Ahead a.greatest) (kept : a.sending.Kept isn)
    (inRange : a.sending.sender.nextSeqno < 2 ^ 64) (op : Op) :
    (a.step op).sending.sender.Ahead (a.step op).greatest := by
  cases op with
  | write data => exact h.congr rfl rfl rfl
  | endInput => exact h.congr rfl rfl rfl
  | fillWindow => exact h.fillWindow kept
  | tick ms =>
    show (a.sending.sender.tick ms).Ahead a.greatest
    rw [TCPSender.tick_frame]
    exact h.congr rfl rfl rfl
  | sendEmpty => exact h.congr rfl rfl rfl
  | ack ackno windowSize =>
    show (a.sending.sender.ackReceived ackno windowSize).Ahead
      (if a.sending.absAckno ackno ≤ a.sending.sender.nextSeqno then
        max a.greatest (a.sending.absAckno ackno) else a.greatest)
    rw [TCPSender.ackReceived_eq]
    unfold Sending.absAckno
    generalize unwrap ackno a.sending.sender.isn a.sending.sender.ackedNext = absAckno
    by_cases hsent : absAckno ≤ a.sending.sender.nextSeqno
    · rw [if_pos hsent, if_neg (Nat.not_lt_of_le hsent)]
      exact (h.acceptAck kept inRange hsent windowSize).fillWindow
        (Accounts.acceptAck kept inRange absAckno windowSize)
    · rw [if_neg hsent, if_pos (Nat.lt_of_not_le hsent)]
      exact h.congr rfl rfl rfl

theorem ahead_of_run {ok : Acking → Op → Prop} (run : Runs.Reach step ok (new capacity retxTimeout isn) a)
    (few : a.sending.sender.nextSeqno < 2 ^ 63) :
    a.sending.Kept isn ∧ a.sending.sender.Ahead a.greatest := by
  refine run.invariant_below (fun a => a.sending.Kept isn ∧ a.sending.sender.Ahead a.greatest)
    (fun a => a.sending.sender.nextSeqno) ⟨accounts_new capacity retxTimeout isn, ?_⟩
    (fun a op _ => Sending.step_nextSeqno_le a.sending op) ?_ few
  · exact ⟨Nat.le_refl 0, fun _ hseg => absurd hseg List.not_mem_nil, fun _ hc => nomatch hc⟩
  · intro a op ⟨kept, ahead⟩ _ hless
    have hrange : a.sending.sender.nextSeqno < 2 ^ 63 :=
      Nat.lt_of_le_of_lt (Sending.step_nextSeqno_le a.sending op) hless
    exact ⟨kept.step op (by omega), ahead_step ahead kept (by omega) op⟩

/-- An acknowledgment number lies strictly inside the oldest outstanding segment. -/
def Inside (s : TCPSender) (absAckno : Nat) : Prop :=
  ∃ oldest ∈ s.outstandingBuffer.head?,
    s.ackedNext < absAckno ∧ absAckno < s.ackedNext + oldest.lengthInSequenceSpace

instance (s : TCPSender) (absAckno : Nat) : Decidable (Inside s absAckno) :=
  inferInstanceAs (Decidable (∃ oldest ∈ s.outstandingBuffer.head?, _))

/-- **Old acknowledgments do not restart the timer**, whatever their window, exactly unless they lie inside
the oldest outstanding segment while the timer is not fresh. -/
theorem old_ack_keeps_timer (run : Runs.Reach step (fun _ _ => True) (new capacity retxTimeout isn) a)
    (few : a.sending.sender.nextSeqno < 2 ^ 63) (some : a.sending.sender.outstandingBuffer ≠ [])
    (ackno : WrappingInt32) (windowSize : UInt16) (old : a.sending.absAckno ackno ≤ a.greatest) :
    TCPSender.SameTimes a.sending.sender.timer
        (a.sending.sender.ackReceived ackno windowSize).timer ↔
      ¬Inside a.sending.sender (a.sending.absAckno ackno) ∨ TCPSender.Fresh a.sending.sender.timer := by
  obtain ⟨kept, ahead⟩ := ahead_of_run run few
  by_cases hinside : Inside a.sending.sender (a.sending.absAckno ackno)
  · obtain ⟨oldest, holdest, habove, hbelow⟩ := hinside
    have hreset := TCPSender.ackReceived_resets kept (by omega) holdest (Nat.le_trans old ahead.sent) habove
      hbelow windowSize
    rw [TCPSender.sameTimes_of_reset hreset]
    exact ⟨.inr, fun h => h.resolve_left fun hc => hc ⟨oldest, holdest, habove, hbelow⟩⟩
  · refine iff_of_true (TCPSender.ackReceived_sameTimes kept (by omega) some ?_ windowSize) (.inl hinside)
    obtain ⟨oldest, holdest⟩ := Option.ne_none_iff_exists'.mp (mt List.head?_eq_none_iff.mp some)
    have hbelow := ahead.inside oldest holdest
    by_contra hc
    exact hinside ⟨oldest, holdest, Nat.lt_of_not_le hc, by omega⟩

/-- An old acknowledgment with another window, two ticks after the one that was news. -/
theorem old_ack_keeps_timer_two :
    let a := [.fillWindow, .ack ⟨8⟩ 4, .write [1, 2, 3, 4], .fillWindow, .tick 2].foldl step (new 4 3 ⟨7⟩)
    a.sending.sender.timer.timePass = 2 ∧
      (a.sending.sender.ackReceived ⟨8⟩ 9).timer.timePass = 2 := by
  intro a
  have hsame := (old_ack_keeps_timer (a := a) (Runs.reach_foldl .start (by decide +kernel))
    (by decide +kernel) (by decide +kernel) ⟨8⟩ 9 (by decide +kernel)).mpr (.inl (by decide +kernel))
  exact ⟨by decide +kernel, hsame.1⟩

/-- Four bytes are sent as one segment, and the peer acknowledges two of them, twice. The second time is
no news, and it sets the timer back. -/
theorem partial_ack_restarts_timer :
    let a := [.fillWindow, .ack ⟨8⟩ 4, .write [1, 2, 3, 4], .fillWindow, .ack ⟨10⟩ 4, .tick 2].foldl step
      (new 4 3 ⟨7⟩)
    a.sending.sender.outstandingBuffer ≠ [] ∧ a.sending.absAckno ⟨10⟩ ≤ a.greatest ∧
      a.sending.sender.timer.timePass = 2 ∧
      (a.sending.sender.ackReceived ⟨10⟩ 4).timer.timePass = 0 := by
  decide +kernel

end Acking

/-! ## Impossible acknowledgments -/

namespace TCPSender

variable {s s' : TCPSender}

/-- The sender with another window noted. -/
def noting (s : TCPSender) (receivedWindowSize : Nat) : TCPSender := { s with receivedWindowSize }

theorem fillTurn_noting (s : TCPSender) (window : Nat) :
    (s.noting window).fillTurn = (s.fillTurn.1.noting window, s.fillTurn.2) := by
  have hbody : ∀ (s : TCPSender) data,
      (s.noting window).fillBody data = ((s.fillBody data).1.noting window, (s.fillBody data).2) := by
    intro s data
    rw [fillBody_eq, fillBody_eq]
    show (if s.peerWindowSize < (s.fresh data s.stream.eof).lengthInSequenceSpace then
        if (s.fresh data false).lengthInSequenceSpace = 0 then _ else _
      else if (s.fresh data s.stream.eof).lengthInSequenceSpace = 0 then _ else _) = _
    split
    · split <;> rfl
    · split <;> rfl
  have hcond : (s.noting window).fillCondition =
      (s.fillCondition.1, s.fillCondition.2.1, s.fillCondition.2.2.noting window) := by
    unfold fillCondition
    show (if (!s.finSent && s.stream.eof) || !s.synSent then _ else _) = _
    split <;> rfl
  unfold fillTurn
  rw [hcond]
  obtain ⟨goOn, data, taken⟩ := s.fillCondition
  dsimp only
  split
  · exact hbody taken data
  · rfl

/-- Filling the window does not look at the window noted. -/
theorem fillWindow_noting (s : TCPSender) (window : Nat) :
    (s.noting window).fillWindow = s.fillWindow.noting window :=
  fillLoop_map (fun s => s.fillTurn_noting window) (s.fillBound + 1) s

theorem fillWindow_receivedWindowSize (s : TCPSender) :
    s.fillWindow.receivedWindowSize = s.receivedWindowSize := by
  have hsame : s.fillWindow = s.fillWindow.noting s.receivedWindowSize :=
    s.fillWindow_noting s.receivedWindowSize
  rw [hsame]
  rfl

end TCPSender

/-! ## What timer and window say of the segments outstanding -/

namespace Timer

variable {initRto : UInt16} {t : Timer}

/-- A timer that counts in 64 bits, and is as new while it does not run. Unlike `Backed` it allows any
number of timeouts, and a timeout of zero. -/
structure Sound (initRto : UInt16) (t : Timer) : Prop where
  initial : t.initialRto = initRto.toNat
  passed : t.timePass < 2 ^ 64
  bounded : t.rto < 2 ^ 64
  zero : initRto = 0 → t.rto = 0
  idle : t.running = false → t.timePass = 0 ∧ t.rto = initRto.toNat

/-- At the initial timeout with nothing elapsed, whatever the failures counted. -/
theorem sound_initial (initRto : UInt16) (failCount : UInt16) (running : Bool) (shift : UInt32) :
    Sound initRto ⟨initRto.toNat, initRto.toNat, 0, failCount, running, shift⟩ := by
  refine ⟨rfl, Nat.two_pow_pos 64, Nat.lt_trans initRto.toNat_lt (by decide), fun hzero => ?_,
    fun _ => ⟨rfl, rfl⟩⟩
  rw [hzero]
  rfl

theorem Sound.reset (h : t.Sound initRto) : t.reset.Sound initRto := by
  unfold Timer.reset
  rw [h.initial]
  exact sound_initial initRto _ _ _

theorem Sound.stop (h : t.Sound initRto) : t.stop.Sound initRto := by
  unfold Timer.stop Timer.reset
  rw [h.initial]
  exact sound_initial initRto _ _ _

theorem Sound.resetRto (h : t.Sound initRto) : t.resetRto.Sound initRto := by
  unfold Timer.resetRto
  rw [h.initial]
  exact sound_initial initRto _ _ _

/-- A timer that does not run goes off only when the timeout is zero. -/
theorem Sound.runs_of_expires (h : t.Sound initRto) {ms : Nat} (expires : (t.pass ms).isExpire = true) :
    t.running = true ∨ initRto = 0 := by
  cases hruns : t.running with
  | true => exact .inl rfl
  | false =>
    obtain ⟨hpass, hrto⟩ := h.idle hruns
    rw [pass_of_stopped hruns] at expires
    simp only [isExpire, decide_eq_true_eq, hpass, hrto, Nat.le_zero] at expires
    exact .inr (UInt16.toNat_inj.mp expires)

theorem Sound.doubleRto (h : t.Sound initRto) (runs : t.running = true ∨ initRto = 0) :
    t.doubleRto.Sound initRto := by
  have hzero : initRto = 0 → t.doubleRto.rto = 0 := by
    intro hzero
    show (t.initialRto <<< _) % 2 ^ 64 = 0
    rw [h.initial, hzero]
    exact (congrArg (· % 2 ^ 64) (Nat.zero_shiftLeft _)).trans (Nat.zero_mod _)
  refine ⟨h.initial, Nat.two_pow_pos 64, Nat.mod_lt _ (by decide), hzero, fun hstopped => ⟨rfl, ?_⟩⟩
  have hstopped : t.running = false := hstopped
  have hinit := runs.resolve_left (by rw [hstopped]; exact Bool.false_ne_true)
  rw [hzero hinit, hinit]
  rfl

theorem Sound.pass (h : t.Sound initRto) (ms : Nat) : (t.pass ms).Sound initRto := by
  unfold Timer.pass
  split
  next hruns =>
    refine ⟨h.initial, Word64.add_lt _ _, h.bounded, h.zero, fun hstopped => ?_⟩
    rw [show t.running = false from hstopped] at hruns
    cases hruns
  next => exact h

/-- A timer that runs goes off after some time, and with a timeout of zero any timer does. -/
theorem Sound.expires (h : t.Sound initRto) (runs : t.running = true ∨ initRto = 0) :
    ∃ ms, (t.pass ms).isExpire = true := by
  rcases runs with hruns | hzero
  · refine ⟨t.rto - t.timePass, ?_⟩
    have hpassed := h.passed
    have hbounded := h.bounded
    rw [Timer.pass, if_pos hruns]
    simp only [isExpire, decide_eq_true_eq]
    rw [Word64.add_eq (by omega)]
    omega
  · refine ⟨0, ?_⟩
    simp only [isExpire, decide_eq_true_eq, (pass_same t 0).2, h.zero hzero, Nat.zero_le]

end Timer

namespace TCPSender

variable {s s' : TCPSender} {initRto : UInt16}

/-- The timer runs exactly while segments are outstanding, and while none are the window is open. -/
structure Poised (initRto : UInt16) (s : TCPSender) : Prop where
  fillable : s.Fillable
  sound : s.timer.Sound initRto
  runs : s.timer.running = true ↔ s.outstandingBuffer ≠ []
  flight : s.bytesInFlight = seqLen s.outstandingBuffer
  vacant : s.outstandingBuffer = [] → 0 < s.peerWindowSize

theorem poised_new (capacity : Nat) (retxTimeout : UInt16) (isn : WrappingInt32) :
    (new capacity retxTimeout isn).Poised retxTimeout where
  fillable := fillable_new capacity retxTimeout isn
  sound := Timer.sound_initial retxTimeout 0 false 0
  runs := ⟨nofun, fun hc => absurd rfl hc⟩
  flight := rfl
  vacant := fun _ => Nat.one_pos

theorem Poised.send (h : s.Poised initRto) {data : Bytes} {fin : Bool} (sendable : s.Sendable data fin) :
    (s.send data fin).Poised initRto := by
  have hsome : (s.send data fin).outstandingBuffer ≠ [] :=
    List.append_ne_nil_of_right_ne_nil _ (List.cons_ne_nil _ _)
  refine ⟨Fillable.send sendable, ?_, ?_, ?_, fun hc => absurd hc hsome⟩
  · rw [send_timer]
    exact ⟨h.sound.initial, h.sound.passed, h.sound.bounded, h.sound.zero, nofun⟩
  · rw [send_timer]
    exact iff_of_true rfl hsome
  · show s.bytesInFlight + _ = seqLen (s.outstandingBuffer ++ [_])
    rw [h.flight, seqLen_append, seqLen_cons, seqLen_nil]
    rfl

theorem Poised.fillWindow (h : s.Poised initRto) : s.fillWindow.Poised initRto := by
  obtain ⟨-, -, hpoised⟩ := fillLoop_rule (P := fun _ s => s.Poised initRto)
    (fun _ _ h => h.fillable.finLast) (fun _ _ _ _ h _ hsend => h.send hsend) (s.fillBound + 1) [] h
  exact hpoised

/-- What an acknowledgment leaves: the timer is stopped when nothing is, and the window is then open. -/
theorem Poised.acceptAck (h : s.Poised initRto) (absAckno : Nat) (windowSize : UInt16) :
    (s.acceptAck absAckno windowSize).Poised initRto := by
  obtain ⟨popped, hpopped, -, hflight, -⟩ :=
    ackLoop_spec s.isn absAckno s.outstandingBuffer s.ackedNext s.bytesInFlight false
  change s.outstandingBuffer = popped ++ (s.acked absAckno).1 at hpopped
  change (s.acked absAckno).2.2.1 = s.bytesInFlight - seqLen popped at hflight
  have hcount : (s.acked absAckno).2.2.1 = seqLen (s.acked absAckno).1 := by
    rw [hflight, h.flight, hpopped, seqLen_append, Nat.add_sub_cancel_left]
  have hruns : (s.acked absAckno).1 ≠ [] → s.timer.running = true := by
    intro hsome
    refine h.runs.mpr fun hnil => hsome ?_
    rw [hnil] at hpopped
    exact (List.append_eq_nil_iff.mp hpopped.symm).2
  have htimer := acceptAck_timer s absAckno windowSize
  refine ⟨h.fillable.acceptAck absAckno windowSize, ?_, ?_, hcount, fun hnil => ?_⟩
  · rw [htimer]
    split
    · exact h.sound.stop
    · split
      · exact h.sound.reset
      · exact h.sound
  · rw [htimer, acceptAck_outstanding]
    split
    next hnil => exact iff_of_false Bool.false_ne_true (not_not.mpr hnil)
    next hsome =>
      refine iff_of_true ?_ hsome
      split
      · exact hruns hsome
      · exact hruns hsome
  · have hnil : (s.acked absAckno).1 = [] := hnil
    show 0 < (if windowSize = 0 then 1 else windowSize.toNat) - (s.acked absAckno).2.2.1
    rw [hcount, hnil, seqLen_nil, Nat.sub_zero]
    split
    · exact Nat.one_pos
    next hopen => exact Nat.pos_of_ne_zero fun hc => hopen (UInt16.toNat_inj.mp hc)

theorem Poised.noting (h : s.Poised initRto) (window : Nat) : (s.noting window).Poised initRto :=
  ⟨⟨h.fillable.finLast, h.fillable.room, h.fillable.unsent⟩, h.sound, h.runs, h.flight, h.vacant⟩

theorem Poised.ackReceived (h : s.Poised initRto) (ackno : WrappingInt32) (windowSize : UInt16) :
    (s.ackReceived ackno windowSize).Poised initRto := by
  rw [ackReceived_eq]
  split
  · exact h.noting windowSize.toNat
  · exact (h.acceptAck _ windowSize).fillWindow

theorem Poised.tick (h : s.Poised initRto) (ms : Nat) : (s.tick ms).Poised initRto := by
  have hset : ∀ {s' : TCPSender}, s'.Fillable → s'.timer.Sound initRto →
      s'.timer.running = s.timer.running → s'.outstandingBuffer = s.outstandingBuffer →
      s'.bytesInFlight = s.bytesInFlight → s'.peerWindowSize = s.peerWindowSize → s'.Poised initRto := by
    intro s' hfill hsound hruns hout hflight hpeer
    refine ⟨hfill, hsound, ?_, ?_, ?_⟩
    · rw [hruns, hout]
      exact h.runs
    · rw [hflight, hout]
      exact h.flight
    · rw [hout, hpeer]
      exact h.vacant
  have hfill := h.fillable.tick ms
  rcases s.tick_cases ms with ⟨-, heq⟩ | ⟨-, -, heq⟩ | ⟨hexp, -, heq⟩
  · rw [heq] at hfill ⊢
    exact hset hfill (h.sound.pass ms) (Timer.pass_running _ _) rfl rfl rfl
  · rw [heq] at hfill ⊢
    exact hset hfill h.sound.resetRto rfl rfl rfl rfl
  · rw [heq] at hfill ⊢
    exact hset hfill (h.sound.doubleRto (h.sound.runs_of_expires hexp)) rfl rfl rfl rfl

/-- With segments outstanding the timer goes off after some time. -/
theorem Poised.expires (h : s.Poised initRto) (busy : s.outstandingBuffer ≠ [] ∨ initRto = 0) :
    ∃ ms, s.Expires ms :=
  h.sound.expires (busy.imp_left h.runs.mpr)

/-- **With nothing outstanding and the FIN unsent, ending the input makes a segment outstanding.** -/
theorem Poised.can_send (h : s.Poised initRto) (none : s.outstandingBuffer = [])
    (unsent : s.finSent = false) :
    ({ s with stream := s.stream.endInput }.fillWindow).outstandingBuffer ≠ [] := by
  have hfill : Fillable { s with stream := s.stream.endInput } :=
    ⟨h.fillable.finLast.endInput, h.fillable.room, h.fillable.unsent⟩
  have hopen := h.vacant none
  generalize hended : { s with stream := s.stream.endInput } = ended at *
  have hend : ended.stream.isEnd = true ∧ ended.finSent = false ∧ 0 < ended.peerWindowSize :=
    hended ▸ ⟨rfl, unsent, hopen⟩
  rw [fillWindow_eq hfill.finLast]
  rcases fillTurn_cases hfill.finLast with ⟨heq, hsyn⟩ | ⟨data, fin, again, heq, -, hsend, -⟩
  · -- the end of the input is due to be told, and the window is open
    rcases (silent_of_fillTurn hsyn heq).2 with hclosed | ⟨-, hfin⟩
    · omega
    · have hsent := hfin hend.1
      rw [hend.2.1] at hsent
      cases hsent
  · rw [heq]
    have hsome : (ended.send data fin).outstandingBuffer ≠ [] :=
      List.append_ne_nil_of_right_ne_nil _ (List.cons_ne_nil _ _)
    dsimp only
    split
    · obtain ⟨-, new, hfilled⟩ := (Fillable.send hsend).ends (ends_fillWindow (send_finLast hsend))
      rw [hfilled.outstanding]
      exact List.append_ne_nil_of_left_ne_nil hsome _
    · exact hsome

/-- A sender that has sent everything, with the FIN, and has nothing outstanding. Its timeout is not zero,
so its timer does not go off again. -/
structure Finished (initRto : UInt16) (s : TCPSender) : Prop where
  poised : s.Poised initRto
  nonzero : initRto ≠ 0
  fin : s.finSent = true
  none : s.outstandingBuffer = []

theorem Finished.fillWindow_eq (h : s.Finished initRto) : s.fillWindow = s := by
  obtain ⟨hsyn, heof⟩ := h.poised.fillable.finLast h.fin
  simp only [ByteStream.eof, Bool.and_eq_true, List.isEmpty_iff] at heof
  exact fillWindow_of_silent h.poised.fillable.finLast ⟨hsyn, .inr ⟨heof.1, fun _ => h.fin⟩⟩

/-- The timer of a finished sender does not go off. -/
theorem Finished.tick_eq (h : s.Finished initRto) (ms : Nat) : s.tick ms = s := by
  have hstopped : s.timer.running = false :=
    eq_false_of_ne_true fun hruns => h.poised.runs.mp hruns h.none
  have hquiet : ¬s.Expires ms := by
    intro hexp
    rcases h.poised.sound.runs_of_expires hexp with hruns | hzero
    · exact h.poised.runs.mp hruns h.none
    · exact h.nonzero hzero
  rcases s.tick_cases ms with ⟨-, heq⟩ | ⟨hexp, -⟩ | ⟨hexp, -⟩
  · rw [heq, Timer.pass_of_stopped hstopped]
  · exact absurd hexp hquiet
  · exact absurd hexp hquiet

theorem Finished.ackReceived (h : s.Finished initRto) (ackno : WrappingInt32) (windowSize : UInt16) :
    (s.ackReceived ackno windowSize).Finished initRto := by
  have hpoised := h.poised.ackReceived ackno windowSize
  rw [ackReceived_eq] at hpoised ⊢
  split at hpoised
  next hbeyond =>
    rw [if_pos hbeyond]
    exact ⟨hpoised, h.nonzero, h.fin, h.none⟩
  next hsent =>
    rw [if_neg hsent]
    generalize unwrap ackno s.isn s.ackedNext = absAckno at *
    have hnone : (s.acceptAck absAckno windowSize).outstandingBuffer = [] := by
      rw [acceptAck_outstanding, acked, h.none]
      rfl
    have haccepted : (s.acceptAck absAckno windowSize).Finished initRto :=
      ⟨h.poised.acceptAck absAckno windowSize, h.nonzero, h.fin, hnone⟩
    rw [haccepted.fillWindow_eq]
    exact haccepted

/-- Two senders that differ at most in the window noted, and agree on its being zero or are finished. -/
def Alike (initRto : UInt16) (s s' : TCPSender) : Prop :=
  ∃ window, s' = s.noting window ∧ ((window = 0 ↔ s.receivedWindowSize = 0) ∨ s.Finished initRto)

theorem Alike.refl (s : TCPSender) : Alike initRto s s := ⟨s.receivedWindowSize, rfl, .inl Iff.rfl⟩

/-- After an acknowledgment the two are the same. -/
theorem Alike.ackReceived (h : Alike initRto s s') (ackno : WrappingInt32) (windowSize : UInt16) :
    Alike initRto (s.ackReceived ackno windowSize) (s'.ackReceived ackno windowSize) := by
  obtain ⟨window, rfl, -⟩ := h
  exact Alike.refl _

/-- A timeout looks at the window noted, for being zero. -/
theorem Alike.tick (h : Alike initRto s s') (ms : Nat) : Alike initRto (s.tick ms) (s'.tick ms) := by
  obtain ⟨window, rfl, hzero | hdone⟩ := h
  · rcases s.tick_cases ms with ⟨hexp, heq⟩ | ⟨hexp, hclosed, heq⟩ | ⟨hexp, hopen, heq⟩
    · rcases (s.noting window).tick_cases ms with ⟨-, heq'⟩ | ⟨hc, -⟩ | ⟨hc, -⟩
      · rw [heq, heq']
        exact ⟨window, rfl, .inl hzero⟩
      · exact absurd hc hexp
      · exact absurd hc hexp
    · rcases (s.noting window).tick_cases ms with ⟨hc, -⟩ | ⟨-, -, heq'⟩ | ⟨-, hc, -⟩
      · exact absurd hexp hc
      · rw [heq, heq']
        exact ⟨window, rfl, .inl hzero⟩
      · exact absurd (hzero.mpr hclosed) hc
    · rcases (s.noting window).tick_cases ms with ⟨hc, -⟩ | ⟨-, hc, -⟩ | ⟨-, -, heq'⟩
      · exact absurd hexp hc
      · exact absurd (hzero.mp hc) hopen
      · rw [heq, heq']
        exact ⟨window, rfl, .inl hzero⟩
  · have hnoted : (s.noting window).Finished initRto :=
      ⟨hdone.poised.noting window, hdone.nonzero, hdone.fin, hdone.none⟩
    rw [hdone.tick_eq, hnoted.tick_eq]
    exact ⟨window, rfl, .inr hdone⟩

/-- **A timeout tells a zero window from an open one**: only the second is counted. -/
theorem tick_tells {window ms : Nat} (expires : s.Expires ms)
    (differ : ¬(window = 0 ↔ s.receivedWindowSize = 0)) :
    ((s.noting window).tick ms).timer.failCount ≠ (s.tick ms).timer.failCount := by
  have hcounted : ∀ count : UInt16, count + 1 ≠ count := by
    intro count hc
    have hnat := congrArg UInt16.toNat hc
    have hlt := count.toNat_lt
    rw [UInt16.toNat_add, show (1 : UInt16).toNat = 1 from rfl] at hnat
    omega
  have hexp : (s.noting window).Expires ms := expires
  rcases s.tick_cases ms with ⟨hc, -⟩ | ⟨-, hclosed, heq⟩ | ⟨-, hopen, heq⟩
  · exact absurd expires hc
  · rcases (s.noting window).tick_cases ms with ⟨hc, -⟩ | ⟨-, hc, -⟩ | ⟨-, -, heq'⟩
    · exact absurd hexp hc
    · exact absurd (iff_of_true hc hclosed) differ
    · rw [heq, heq']
      exact hcounted s.timer.failCount
  · rcases (s.noting window).tick_cases ms with ⟨hc, -⟩ | ⟨-, -, heq'⟩ | ⟨-, hc, -⟩
    · exact absurd hexp hc
    · rw [heq, heq']
      exact (hcounted s.timer.failCount).symm
    · exact absurd (iff_of_false hc hopen) differ

end TCPSender

namespace Sending

variable {s s' : Sending} {capacity : Nat} {retxTimeout : UInt16} {isn : WrappingInt32}

theorem poised_step (h : s.sender.Poised retxTimeout) (op : Op) : (s.step op).sender.Poised retxTimeout := by
  have hfill := fillable_step h.fillable op
  cases op with
  | write data => exact ⟨hfill, h.sound, h.runs, h.flight, h.vacant⟩
  | endInput => exact ⟨hfill, h.sound, h.runs, h.flight, h.vacant⟩
  | fillWindow => exact h.fillWindow
  | ack ackno windowSize => exact h.ackReceived ackno windowSize
  | tick ms => exact h.tick ms
  | sendEmpty => exact ⟨hfill, h.sound, h.runs, h.flight, h.vacant⟩

/-- **A finished sender stays finished.** -/
theorem finished_step (h : s.sender.Finished retxTimeout) (op : Op) :
    (s.step op).sender.Finished retxTimeout := by
  have hpoised := poised_step h.poised op
  cases op with
  | write data => exact ⟨hpoised, h.nonzero, h.fin, h.none⟩
  | endInput => exact ⟨hpoised, h.nonzero, h.fin, h.none⟩
  | sendEmpty => exact ⟨hpoised, h.nonzero, h.fin, h.none⟩
  | fillWindow =>
    show s.sender.fillWindow.Finished retxTimeout
    rw [h.fillWindow_eq]
    exact h
  | ack ackno windowSize => exact h.ackReceived ackno windowSize
  | tick ms =>
    show (s.sender.tick ms).Finished retxTimeout
    rw [h.tick_eq]
    exact h

/-- **Alike senders stay alike**, whatever is done to both. -/
theorem alike_step (h : s.sender.Alike retxTimeout s'.sender) (op : Op) :
    (s.step op).sender.Alike retxTimeout (s'.step op).sender := by
  cases op with
  | ack ackno windowSize => exact h.ackReceived ackno windowSize
  | tick ms => exact h.tick ms
  | write data =>
    obtain ⟨window, heq, hzero⟩ := h
    refine ⟨window, ?_, hzero.imp_right fun hdone => finished_step hdone (.write data)⟩
    simp only [step, heq, TCPSender.noting]
  | endInput =>
    obtain ⟨window, heq, hzero⟩ := h
    refine ⟨window, ?_, hzero.imp_right fun hdone => finished_step hdone .endInput⟩
    simp only [step, heq, TCPSender.noting]
  | sendEmpty =>
    obtain ⟨window, heq, hzero⟩ := h
    refine ⟨window, ?_, hzero.imp_right fun hdone => finished_step hdone .sendEmpty⟩
    simp only [step, heq, TCPSender.noting, TCPSender.sendEmptySegment, TCPSender.emptySegment]
  | fillWindow =>
    obtain ⟨window, heq, hzero⟩ := h
    refine ⟨window, ?_, hzero.imp (fun hzero => ?_) fun hdone => finished_step hdone .fillWindow⟩
    · show s'.sender.fillWindow = s.sender.fillWindow.noting window
      rw [heq, TCPSender.fillWindow_noting]
    · rw [hzero, show (s.step .fillWindow).sender = s.sender.fillWindow from rfl,
        TCPSender.fillWindow_receivedWindowSize]

/-- What the outside sees of a sender is the same. -/
def SameSeen (s s' : TCPSender) : Prop :=
  s'.segmentsOut = s.segmentsOut ∧ s'.bytesInFlight = s.bytesInFlight ∧
    s'.timer.failCount = s.timer.failCount

theorem sameSeen_of_alike (h : s.sender.Alike retxTimeout s'.sender) (ops : List Op) :
    SameSeen (ops.foldl step s).sender (ops.foldl step s').sender := by
  obtain ⟨window, heq, -⟩ : (ops.foldl step s).sender.Alike retxTimeout (ops.foldl step s').sender :=
    List.foldl_rel (r := fun (s s' : Sending) => s.sender.Alike retxTimeout s'.sender) h
      fun op _ _ _ h => alike_step h op
  rw [heq]
  exact ⟨rfl, rfl, rfl⟩

/-- **Senders that differ in a window's being zero can be told apart**, unless they are finished: the timer
is made to go off, if need be by sending something first. -/
theorem told_apart (h : s.sender.Poised retxTimeout) {window : Nat}
    (noted : s'.sender = s.sender.noting window)
    (differ : ¬(window = 0 ↔ s.sender.receivedWindowSize = 0))
    (unfinished : ¬s.sender.Finished retxTimeout) :
    ∃ ops : List Op, ¬SameSeen (ops.foldl step s).sender (ops.foldl step s').sender := by
  by_cases hbusy : s.sender.outstandingBuffer ≠ [] ∨ retxTimeout = 0
  · obtain ⟨ms, hexp⟩ := h.expires hbusy
    refine ⟨[.tick ms], fun hsame => ?_⟩
    have hcount : (s'.sender.tick ms).timer.failCount = (s.sender.tick ms).timer.failCount := hsame.2.2
    rw [noted] at hcount
    exact TCPSender.tick_tells hexp differ hcount
  · rw [not_or, not_not] at hbusy
    obtain ⟨hnone, hnonzero⟩ := hbusy
    have hfin : s.sender.finSent = false :=
      eq_false_of_ne_true fun hfin => unfinished ⟨h, hnonzero, hfin, hnone⟩
    -- end the input, send what is left or the FIN, and wait
    have hsent := h.can_send hnone hfin
    have hended := poised_step (poised_step h .endInput) .fillWindow
    obtain ⟨ms, hexp⟩ := hended.expires (.inl hsent)
    refine ⟨[.endInput, .fillWindow, .tick ms], fun hsame => ?_⟩
    have hnoted : ((s'.step .endInput).step .fillWindow).sender =
        ((s.step .endInput).step .fillWindow).sender.noting window := by
      show ({ s'.sender with stream := s'.sender.stream.endInput }).fillWindow = _
      rw [noted]
      exact TCPSender.fillWindow_noting { s.sender with stream := s.sender.stream.endInput } window
    have hkept : ((s.step .endInput).step .fillWindow).sender.receivedWindowSize =
        s.sender.receivedWindowSize := TCPSender.fillWindow_receivedWindowSize _
    have hcount : (((s'.step .endInput).step .fillWindow).sender.tick ms).timer.failCount =
        (((s.step .endInput).step .fillWindow).sender.tick ms).timer.failCount := hsame.2.2
    rw [hnoted] at hcount
    exact TCPSender.tick_tells hexp (by rw [hkept]; exact differ) hcount

/-- **When an impossible acknowledgment is ignored completely**, in every state of every run: exactly if its
window is zero just when the window noted before it is, or if everything was sent and acknowledged, the FIN
included, and the timeout is not zero. Then, whatever happens later, the segments sent, the bytes in flight
and the retransmissions counted are those of the sender that never saw it. -/
theorem impossible_ack_ignored (run : Runs.Reach step (fun _ _ => True) (new capacity retxTimeout isn) s)
    (ackno : WrappingInt32) (windowSize : UInt16) (impossible : s.sender.nextSeqno < s.absAckno ackno) :
    (∀ ops : List Op,
        let without := ops.foldl step s
        let later := ops.foldl step (s.step (.ack ackno windowSize))
        later.sender.segmentsOut = without.sender.segmentsOut ∧
          later.sender.bytesInFlight = without.sender.bytesInFlight ∧
          later.sender.timer.failCount = without.sender.timer.failCount) ↔
      (windowSize = 0 ↔ s.sender.receivedWindowSize = 0) ∨
        retxTimeout ≠ 0 ∧ s.sender.finSent = true ∧ s.sender.outstandingBuffer = [] := by
  have hpoised : s.sender.Poised retxTimeout :=
    run.invariant (fun s => s.sender.Poised retxTimeout) (TCPSender.poised_new capacity retxTimeout isn)
      fun _ op h _ => poised_step h op
  have hnoted : (s.step (.ack ackno windowSize)).sender = s.sender.noting windowSize.toNat := by
    show s.sender.ackReceived ackno windowSize = _
    rw [TCPSender.ackReceived_eq]
    exact if_pos impossible
  have hzero : windowSize.toNat = 0 ↔ windowSize = 0 :=
    ⟨fun hc => UInt16.toNat_inj.mp hc, fun hc => by rw [hc]; rfl⟩
  have hdone : s.sender.Finished retxTimeout ↔
      retxTimeout ≠ 0 ∧ s.sender.finSent = true ∧ s.sender.outstandingBuffer = [] :=
    ⟨fun h => ⟨h.nonzero, h.fin, h.none⟩, fun h => ⟨hpoised, h.1, h.2.1, h.2.2⟩⟩
  rw [← hdone, ← hzero]
  constructor
  · intro hsame
    by_contra hc
    rw [not_or] at hc
    obtain ⟨ops, hops⟩ := told_apart hpoised hnoted hc.1 hc.2
    exact hops (hsame ops)
  · intro hcond ops
    exact sameSeen_of_alike ⟨windowSize.toNat, hnoted, hcond⟩ ops

/-- An impossible acknowledgment with an open window, while the window noted is open. -/
theorem impossible_ack_ignored_three :
    let s := [.fillWindow].foldl step (new 4 1 ⟨7⟩)
    ([.tick 1, .ack ⟨8⟩ 2, .tick 1].foldl step (s.step (.ack ⟨90⟩ 5))).sender.segmentsOut =
      ([.tick 1, .ack ⟨8⟩ 2, .tick 1].foldl step s).sender.segmentsOut := by
  intro s
  exact ((impossible_ack_ignored (s := s) (Runs.reach_foldl .start (by decide +kernel)) ⟨90⟩ 5
    (by decide +kernel)).mpr (.inl (by decide +kernel)) _).1

/-- With a zero window it is not: the timeout that follows is not counted as a retransmission. -/
theorem impossible_ack_hides_timeout :
    let s := [.fillWindow].foldl step (new 4 1 ⟨7⟩)
    s.sender.nextSeqno < s.absAckno ⟨90⟩ ∧
      (s.step (.tick 1)).sender.timer.failCount = 1 ∧
      ((s.step (.ack ⟨90⟩ 0)).step (.tick 1)).sender.timer.failCount = 0 := by
  decide +kernel

end Sending

end Sponge
