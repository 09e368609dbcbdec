import Sponge.Laws.Stream.Reassembler
import Sponge.Tcp.Sender

/-!
# Laws.Tcp.Sender — what one turn of the filling loop can do

A turn of `fill_window` either leaves the sender as it was and stops, or it sends one fresh segment:
the next bytes of the stream, with a SYN if none was sent and a FIN if the stream is at its end and
the window has room for it (`fillTurn_cases`). A turn that goes on brings the loop closer to its end,
so the fuel of `fillLoop` never runs out and `fillWindow` satisfies the equation of the source's loop
(`fillWindow_eq`).

`fillLoop_rule` is the induction rule for everything proved about the loop: a property of the sender
and of the log of its fresh segments that survives one fresh segment survives the loop.
-/

namespace Sponge

/-- What `get_data` answers: the front of the buffer, and the stream without it. -/
theorem getData_eq (stream : ByteStream) (limit : Nat) :
    getData stream limit =
      (stream.popOutput (stream.buf.take limit).length, stream.buf.take limit) := by
  have hlen : min (stream.buf.take limit).length limit = (stream.buf.take limit).length := by
    rw [List.length_take]
    omega
  simp only [getData, ByteStream.peekOutput_eq, hlen, List.take_length]

namespace TCPSender

/-- The segment a turn sends for the data taken. -/
def fresh (s : TCPSender) (data : Bytes) (fin : Bool) : TCPSegment where
  header := { seqno := wrap s.nextSeqno s.isn, syn := !s.synSent, fin }
  payload := Buffer.ofString data

/-- The sender after a turn that sent that segment. -/
def send (s : TCPSender) (data : Bytes) (fin : Bool) : TCPSender :=
  { s with
    stream := s.stream.popOutput data.length
    synSent := true
    finSent := fin }.queue (s.fresh data fin)

/-- What a turn may send: the front of the stream, nothing beside the SYN, a FIN only at the end of
the stream, and no more than the window unless it is the bare SYN. -/
structure Sendable (s : TCPSender) (data : Bytes) (fin : Bool) : Prop where
  front : data = s.stream.buf.take data.length
  synAlone : s.synSent = false → data = []
  ends : fin = true → (s.stream.popOutput data.length).eof = true
  something : s.synSent = false ∨ data ≠ [] ∨ fin = true
  fits : (s.fresh data fin).lengthInSequenceSpace ≤ s.peerWindowSize ∨
    s.synSent = false ∧ fin = false

/-- A FIN was sent only behind the SYN and at the end of the stream. -/
def FinLast (s : TCPSender) : Prop :=
  s.finSent = true → s.synSent = true ∧ s.stream.eof = true

variable {s : TCPSender}

theorem length_fresh (s : TCPSender) (data : Bytes) (fin : Bool) :
    (s.fresh data fin).lengthInSequenceSpace =
      data.length + (if s.synSent then 0 else 1) + if fin then 1 else 0 := by
  unfold TCPSegment.lengthInSequenceSpace fresh
  rw [Buffer.str_ofString]
  cases s.synSent <;> rfl

/-- A fresh segment takes no sequence number exactly when it has no SYN, no data and no FIN. -/
theorem length_fresh_eq_zero (s : TCPSender) (data : Bytes) (fin : Bool) :
    (s.fresh data fin).lengthInSequenceSpace = 0 ↔ s.synSent = true ∧ data = [] ∧ fin = false := by
  rw [length_fresh, Nat.add_eq_zero_iff, Nat.add_eq_zero_iff, List.length_eq_zero_iff]
  cases s.synSent <;> cases fin <;> simp

theorem Sendable.length_pos {data : Bytes} {fin : Bool} (h : Sendable s data fin) :
    0 < (s.fresh data fin).lengthInSequenceSpace := by
  refine Nat.pos_of_ne_zero fun hzero => ?_
  obtain ⟨hsyn, hdata, hfin⟩ := (length_fresh_eq_zero s data fin).mp hzero
  rcases h.something with hunsent | hsome | hends
  · rw [hsyn] at hunsent
    cases hunsent
  · exact hsome hdata
  · rw [hfin] at hends
    cases hends

/-- What may be sent fits the window, as long as the SYN has room. -/
theorem Sendable.within {data : Bytes} {fin : Bool} (h : Sendable s data fin)
    (room : s.synSent = false → 1 ≤ s.peerWindowSize) :
    (s.fresh data fin).lengthInSequenceSpace ≤ s.peerWindowSize := by
  rcases h.fits with hfits | ⟨hsyn, hfin⟩
  · exact hfits
  · -- the bare SYN
    rw [length_fresh, h.synAlone hsyn, hsyn, hfin]
    exact room hsyn

/-- A segment that takes a sequence number has something to send. -/
theorem something_of_length {data : Bytes} {fin : Bool}
    (h : (s.fresh data fin).lengthInSequenceSpace ≠ 0) :
    s.synSent = false ∨ data ≠ [] ∨ fin = true := by
  by_contra hnone
  rw [not_or, not_or, Bool.not_eq_false, not_not, Bool.not_eq_true] at hnone
  exact h ((length_fresh_eq_zero s data fin).mpr hnone)

/-- What the loop condition answers: the SYN or the FIN is due and nothing is taken, or the front of
the stream is. -/
theorem fillCondition_cases (s : TCPSender) :
    s.fillCondition = (true, [], s) ∧
        (s.synSent = false ∨ s.finSent = false ∧ s.stream.eof = true) ∨
      s.synSent = true ∧ ∃ data, s.fillCondition =
          (data.length != 0, data, { s with stream := s.stream.popOutput data.length }) ∧
        data = s.stream.buf.take data.length ∧
        data.length ≤ MAX_PAYLOAD_SIZE ∧ data.length ≤ s.peerWindowSize := by
  unfold fillCondition
  split
  next hdue =>
    simp only [Bool.or_eq_true, Bool.and_eq_true, Bool.not_eq_true'] at hdue
    exact .inl ⟨rfl, hdue.symm⟩
  next hdue =>
    simp only [Bool.or_eq_true, Bool.not_eq_true', not_or, Bool.not_eq_false] at hdue
    refine .inr ⟨hdue.2, s.stream.buf.take (min MAX_PAYLOAD_SIZE s.peerWindowSize), ?_, ?_, ?_, ?_⟩
    · rw [getData_eq]
    · exact List.prefix_iff_eq_take.mp (List.take_prefix _ _)
    · rw [List.length_take]
      omega
    · rw [List.length_take]
      omega

/-- The loop body, with the segments it builds named. -/
theorem fillBody_eq (s : TCPSender) (data : Bytes) :
    s.fillBody data =
      if s.peerWindowSize < (s.fresh data s.stream.eof).lengthInSequenceSpace then
        if (s.fresh data false).lengthInSequenceSpace = 0 then
          ({ s with synSent := true, finSent := false }, false)
        else ({ s with synSent := true, finSent := false }.queue (s.fresh data false), false)
      else if (s.fresh data s.stream.eof).lengthInSequenceSpace = 0 then
        ({ s with synSent := true, finSent := s.finSent || s.stream.eof }, false)
      else ({ s with synSent := true, finSent := s.finSent || s.stream.eof }.queue
        (s.fresh data s.stream.eof), true) := rfl

/-- When a turn goes on and when it attaches the FIN: it goes on if the segment fits with the FIN that
the stream's end asks for, and gives that FIN up otherwise. -/
structure FinFits (s : TCPSender) (data : Bytes) (fin again : Bool) : Prop where
  attached : fin = (again && (s.stream.popOutput data.length).eof)
  goesOn : again = true ↔
    (s.fresh data (s.stream.popOutput data.length).eof).lengthInSequenceSpace ≤ s.peerWindowSize

/-- What the loop body does with the data taken: nothing when there is nothing to send, else it sends
a fresh segment, whose FIN gives way to a full window. -/
theorem fillBody_cases {data : Bytes} (hfin : s.finSent = false)
    (front : data = s.stream.buf.take data.length) (synAlone : s.synSent = false → data = [])
    (fits : data.length ≤ s.peerWindowSize ∨ s.synSent = false) :
    let taken := { s with stream := s.stream.popOutput data.length }
    data = [] ∧ s.synSent = true ∧ taken.fillBody data = (s, false) ∨
      ∃ fin again, taken.fillBody data = (s.send data fin, again) ∧ Sendable s data fin ∧
        FinFits s data fin again := by
  intro taken
  have heq : taken.fillBody data =
      if s.peerWindowSize < (s.fresh data taken.stream.eof).lengthInSequenceSpace then
        if (s.fresh data false).lengthInSequenceSpace = 0 then
          ({ taken with synSent := true, finSent := false }, false)
        else (s.send data false, false)
      else if (s.fresh data taken.stream.eof).lengthInSequenceSpace = 0 then
        ({ taken with synSent := true, finSent := taken.stream.eof }, false)
      else (s.send data taken.stream.eof, true) := by
    rw [fillBody_eq, show taken.finSent = false from hfin, Bool.false_or]
    rfl
  have hnone : s.synSent = true → data = [] →
      { taken with synSent := true, finSent := false } = s := by
    intro hsyn hnil
    simp only [taken, hnil, List.length_nil, ByteStream.popOutput_zero]
    rw [← hsyn, ← hfin]
  rw [heq]
  split
  next hfull =>
    split
    next hzero =>
      obtain ⟨hsyn, hnil, -⟩ := (length_fresh_eq_zero s data false).mp hzero
      exact .inl ⟨hnil, hsyn, Prod.ext (hnone hsyn hnil) rfl⟩
    next hsome =>
      refine .inr ⟨false, false, rfl, ⟨front, synAlone, nofun, something_of_length hsome, ?_⟩,
        ⟨rfl, nofun, fun hle => absurd hfull (Nat.not_lt_of_le hle)⟩⟩
      -- without its FIN the segment fits, or it is the SYN
      cases hsyn : s.synSent with
      | false => exact .inr ⟨rfl, rfl⟩
      | true =>
        left
        rw [length_fresh, if_pos hsyn]
        exact fits.resolve_right (by rw [hsyn]; exact Bool.noConfusion)
  next hroom =>
    split
    next hzero =>
      obtain ⟨hsyn, hnil, heof⟩ := (length_fresh_eq_zero s data taken.stream.eof).mp hzero
      rw [heof]
      exact .inl ⟨hnil, hsyn, Prod.ext (hnone hsyn hnil) rfl⟩
    next hsome =>
      exact .inr ⟨taken.stream.eof, true, rfl,
        ⟨front, synAlone, id, something_of_length hsome, .inl (Nat.le_of_not_lt hroom)⟩,
        ⟨(Bool.true_and _).symm, fun _ => Nat.le_of_not_lt hroom, fun _ => rfl⟩⟩

/-- **What one turn can do**: nothing, and then the loop stops; or send one fresh segment. -/
theorem fillTurn_cases (hlast : s.FinLast) :
    s.fillTurn = (s, false) ∧ s.synSent = true ∨
      ∃ data fin again, s.fillTurn = (s.send data fin, again) ∧ s.finSent = false ∧
        Sendable s data fin ∧ FinFits s data fin again ∧ data.length ≤ MAX_PAYLOAD_SIZE := by
  rcases fillCondition_cases s with ⟨hcond, hdue⟩ | ⟨hsyn, data, hcond, front, hmax, hle⟩
  · have hfin : s.finSent = false := by
      rcases hdue with hsyn | ⟨hfin, -⟩
      · by_contra hc
        have := (hlast (eq_true_of_ne_false hc)).1
        rw [hsyn] at this
        cases this
      · exact hfin
    have hturn : s.fillTurn = s.fillBody [] := by
      unfold fillTurn
      rw [hcond]
      rfl
    rw [hturn]
    rcases fillBody_cases hfin (List.take_zero).symm (fun _ => rfl) (.inl (Nat.zero_le _)) with
      ⟨-, hsyn, heq⟩ | ⟨fin, again, heq, hsend, hfits⟩
    · exact .inl ⟨heq, hsyn⟩
    · exact .inr ⟨[], fin, again, heq, hfin, hsend, hfits, Nat.zero_le _⟩
  · by_cases hnil : data = []
    · subst hnil
      left
      unfold fillTurn
      rw [hcond]
      exact ⟨rfl, hsyn⟩
    · have hturn : s.fillTurn = { s with stream := s.stream.popOutput data.length }.fillBody data := by
        have hgo : (data.length != 0) = true := bne_iff_ne.mpr fun h => hnil (List.length_eq_zero_iff.mp h)
        unfold fillTurn
        rw [hcond]
        dsimp only
        rw [if_pos hgo]
      have hfin : s.finSent = false := by
        -- behind a FIN the stream is empty, and there is no data to take
        by_contra hc
        have heof := (hlast (eq_true_of_ne_false hc)).2
        simp only [ByteStream.eof, Bool.and_eq_true, List.isEmpty_iff] at heof
        rw [heof.1, List.take_nil] at front
        exact hnil front
      rw [hturn]
      rcases fillBody_cases hfin front (fun h => absurd (hsyn ▸ h) Bool.noConfusion) (.inl hle) with
        ⟨hnil', -, -⟩ | ⟨fin, again, heq, hsend, hfits⟩
      · exact absurd hnil' hnil
      · exact .inr ⟨data, fin, again, heq, hfin, hsend, hfits, hmax⟩

theorem FinLast.ended (h : s.FinLast) (fin : s.finSent = true) : s.stream.isEnd = true := by
  have heof := (h fin).2
  simp only [ByteStream.eof, Bool.and_eq_true] at heof
  exact heof.2

/-- Behind a FIN nothing more is written. -/
theorem FinLast.write (h : s.FinLast) (data : Bytes) :
    FinLast { s with stream := (s.stream.write data).1 } := by
  intro hfin
  refine ⟨(h hfin).1, ?_⟩
  rw [ByteStream.write_of_end _ (h.ended hfin)]
  exact (h hfin).2

theorem FinLast.endInput (h : s.FinLast) : FinLast { s with stream := s.stream.endInput } := by
  intro hfin
  obtain ⟨hsyn, heof⟩ := h hfin
  simp only [ByteStream.eof, Bool.and_eq_true] at heof
  exact ⟨hsyn, by simp only [ByteStream.eof, ByteStream.endInput, heof.1, Bool.and_self]⟩

theorem send_finLast {data : Bytes} {fin : Bool} (h : Sendable s data fin) :
    (s.send data fin).FinLast :=
  fun hfin => ⟨rfl, h.ends hfin⟩

/-! ## The loop -/

/-- A turn that goes on brings the loop closer to its end. -/
theorem fillTurn_fillBound (hlast : s.FinLast) (again : s.fillTurn.2 = true) :
    s.fillTurn.1.fillBound < s.fillBound := by
  rcases fillTurn_cases hlast with ⟨heq, -⟩ | ⟨data, fin, go, heq, hfin, hsend, -⟩
  · rw [heq] at again
    cases again
  · have hlen : data.length ≤ s.stream.buf.length := by
      have h := congrArg List.length hsend.front
      rw [List.length_take] at h
      omega
    have hbuf : (s.send data fin).stream.buf.length = s.stream.buf.length - data.length := by
      show (s.stream.popOutput data.length).buf.length = _
      rw [ByteStream.popOutput_buf, List.length_drop]
    rw [heq]
    unfold fillBound
    dsimp only
    rw [hbuf, show (s.send data fin).synSent = true from rfl,
      show (s.send data fin).finSent = fin from rfl, hfin]
    simp only [if_true, Bool.false_eq_true, if_false]
    rcases hsend.something with hsyn | hdata | hf
    · rw [hsyn]
      simp only [Bool.false_eq_true, if_false]
      split <;> omega
    · have := List.length_pos_iff.mpr hdata
      split <;> omega
    · rw [if_pos hf]
      omega

theorem fillTurn_finLast (hlast : s.FinLast) : s.fillTurn.1.FinLast := by
  rcases fillTurn_cases hlast with ⟨heq, -⟩ | ⟨data, fin, go, heq, -, hsend, -⟩
  · rw [heq]
    exact hlast
  · rw [heq]
    exact send_finLast hsend

theorem fillLoop_succ (fuel : Nat) (s : TCPSender) :
    fillLoop (fuel + 1) s = if s.fillTurn.2 then fillLoop fuel s.fillTurn.1 else s.fillTurn.1 := rfl

/-- A change of the sender that no turn looks at may as well be made after the loop. -/
theorem fillLoop_map {f : TCPSender → TCPSender}
    (turn : ∀ s : TCPSender, (f s).fillTurn = (f s.fillTurn.1, s.fillTurn.2)) (fuel : Nat)
    (s : TCPSender) : fillLoop fuel (f s) = f (fillLoop fuel s) := by
  induction fuel generalizing s with
  | zero => rfl
  | succ fuel ih =>
    rw [fillLoop_succ, fillLoop_succ, turn]
    dsimp only
    split
    · exact ih s.fillTurn.1
    · rfl

/-- More fuel than the bound changes nothing. -/
theorem fillLoop_enough (hlast : s.FinLast) {fuel : Nat} (enough : s.fillBound < fuel) :
    fillLoop (fuel + 1) s = fillLoop fuel s := by
  induction fuel generalizing s with
  | zero => omega
  | succ fuel ih =>
    rw [fillLoop_succ (fuel + 1) s, fillLoop_succ fuel s]
    split
    next again =>
      have hless := fillTurn_fillBound hlast again
      exact ih (fillTurn_finLast hlast) (by omega)
    next => rfl

theorem fillLoop_fillBound (hlast : s.FinLast) {fuel : Nat} (enough : s.fillBound < fuel) :
    fillLoop fuel s = s.fillWindow := by
  obtain ⟨extra, rfl⟩ : ∃ extra, fuel = s.fillBound + 1 + extra :=
    ⟨fuel - (s.fillBound + 1), by omega⟩
  clear enough
  induction extra with
  | zero => rfl
  | succ extra ih =>
    exact (fillLoop_enough hlast (by omega : s.fillBound < s.fillBound + 1 + extra)).trans ih

/-- **The equation of the source's loop**: a turn, and the loop again if the turn goes on. The fuel
does not show. -/
theorem fillWindow_eq (hlast : s.FinLast) :
    s.fillWindow = if s.fillTurn.2 then s.fillTurn.1.fillWindow else s.fillTurn.1 := by
  rw [fillWindow, fillLoop_succ]
  split
  next again =>
    exact fillLoop_fillBound (fillTurn_finLast hlast) (fillTurn_fillBound hlast again)
  next => rfl

/-- The induction rule of the loop. `P` speaks of the segments sent freshly so far and of the sender;
it holds after the loop, for the log grown by what the loop queued. -/
theorem fillLoop_rule {P : List TCPSegment → TCPSender → Prop}
    (finLast : ∀ log s, P log s → s.FinLast)
    (keeps : ∀ log s data fin, P log s → s.finSent = false → Sendable s data fin →
      P (log ++ [s.fresh data fin]) (s.send data fin))
    (fuel : Nat) (log : List TCPSegment) (h : P log s) :
    ∃ new, (fillLoop fuel s).segmentsOut = s.segmentsOut ++ new ∧
      P (log ++ new) (fillLoop fuel s) := by
  induction fuel generalizing s log with
  | zero => exact ⟨[], (List.append_nil _).symm, by rwa [List.append_nil]⟩
  | succ fuel ih =>
    rw [fillLoop_succ]
    rcases fillTurn_cases (finLast log s h) with ⟨heq, -⟩ | ⟨data, fin, go, heq, hfin, hsend, -⟩
    · rw [heq]
      exact ⟨[], (List.append_nil _).symm, by rwa [List.append_nil]⟩
    · have hone := keeps log s data fin h hfin hsend
      rw [heq]
      dsimp only
      split
      next =>
        obtain ⟨new, hnew, hP⟩ := ih _ hone
        refine ⟨s.fresh data fin :: new, ?_, ?_⟩
        · rw [hnew]
          exact List.append_assoc _ _ _
        · rwa [List.append_assoc, List.singleton_append] at hP
      next => exact ⟨[s.fresh data fin], rfl, hone⟩

/-! ## The next sequence number only grows -/

theorem queue_nextSeqno_le (s : TCPSender) (seg : TCPSegment) :
    s.nextSeqno ≤ (s.queue seg).nextSeqno :=
  Nat.le_add_right _ _

theorem fillBody_nextSeqno_le (s : TCPSender) (data : Bytes) :
    s.nextSeqno ≤ (s.fillBody data).1.nextSeqno := by
  rw [fillBody_eq]
  split
  · split
    · exact Nat.le_refl s.nextSeqno
    · exact queue_nextSeqno_le _ _
  · split
    · exact Nat.le_refl s.nextSeqno
    · exact queue_nextSeqno_le _ _

theorem fillTurn_nextSeqno_le (s : TCPSender) : s.nextSeqno ≤ s.fillTurn.1.nextSeqno := by
  unfold fillTurn
  rcases fillCondition_cases s with ⟨hcond, -⟩ | ⟨-, data, hcond, -⟩
  · rw [hcond]
    exact fillBody_nextSeqno_le s []
  · rw [hcond]
    dsimp only
    split
    · exact fillBody_nextSeqno_le { s with stream := s.stream.popOutput data.length } data
    · exact Nat.le_refl _

theorem fillLoop_nextSeqno_le (fuel : Nat) (s : TCPSender) :
    s.nextSeqno ≤ (fillLoop fuel s).nextSeqno := by
  induction fuel generalizing s with
  | zero => exact Nat.le_refl _
  | succ fuel ih =>
    rw [fillLoop_succ]
    split
    · exact Nat.le_trans (fillTurn_nextSeqno_le s) (ih _)
    · exact fillTurn_nextSeqno_le s

theorem fillWindow_nextSeqno_le (s : TCPSender) : s.nextSeqno ≤ s.fillWindow.nextSeqno :=
  fillLoop_nextSeqno_le (s.fillBound + 1) s

theorem acceptAck_nextSeqno (s : TCPSender) (absAckno : Nat) (windowSize : UInt16) :
    (s.acceptAck absAckno windowSize).nextSeqno = s.nextSeqno := rfl

/-- The acknowledgment loop drops a front of the outstanding segments. -/
theorem ackLoop_suffix (isn : WrappingInt32) (absAckno : Nat) (l : List TCPSegment)
    (ackedNext bytesInFlight : Nat) (newData : Bool) :
    (ackLoop isn absAckno l ackedNext bytesInFlight newData).1 <:+ l := by
  induction l generalizing ackedNext bytesInFlight newData with
  | nil => exact List.suffix_refl _
  | cons head rest ih =>
    rw [ackLoop]
    split
    · split
      · exact (ih _ _ _).trans (List.suffix_cons _ _)
      · exact List.suffix_refl _
    · exact List.suffix_refl _

/-- Either an acknowledgment is beyond what was sent, or it is accepted and the window filled. -/
theorem ackReceived_eq (s : TCPSender) (ackno : WrappingInt32) (windowSize : UInt16) :
    s.ackReceived ackno windowSize =
      if s.nextSeqno < unwrap ackno s.isn s.ackedNext then
        { s with receivedWindowSize := windowSize.toNat }
      else (s.acceptAck (unwrap ackno s.isn s.ackedNext) windowSize).fillWindow := rfl

theorem ackReceived_nextSeqno_le (s : TCPSender) (ackno : WrappingInt32) (windowSize : UInt16) :
    s.nextSeqno ≤ (s.ackReceived ackno windowSize).nextSeqno := by
  rw [ackReceived_eq]
  generalize unwrap ackno s.isn s.ackedNext = absAckno
  split
  · exact Nat.le_refl s.nextSeqno
  · rw [← acceptAck_nextSeqno s absAckno windowSize]
    exact fillWindow_nextSeqno_le (s.acceptAck absAckno windowSize)

/-- A tick moves the timer and the queue only. -/
theorem tick_frame (s : TCPSender) (ms : Nat) :
    s.tick ms = { s with timer := (s.tick ms).timer, segmentsOut := (s.tick ms).segmentsOut } := by
  unfold tick
  dsimp only
  split <;> rfl

/-- What a tick queues is outstanding. -/
theorem tick_queue (s : TCPSender) (ms : Nat) : ∃ again,
    (s.tick ms).segmentsOut = s.segmentsOut ++ again ∧ ∀ seg ∈ again, seg ∈ s.outstandingBuffer := by
  unfold tick
  dsimp only
  split
  · exact ⟨_, rfl, fun seg hseg => List.mem_of_mem_head? (Option.mem_toList.mp hseg)⟩
  · exact ⟨[], (List.append_nil _).symm, fun _ hseg => absurd hseg List.not_mem_nil⟩

theorem tick_nextSeqno (s : TCPSender) (ms : Nat) : (s.tick ms).nextSeqno = s.nextSeqno := by
  rw [tick_frame]

end TCPSender

end Sponge
