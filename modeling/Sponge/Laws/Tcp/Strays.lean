import Sponge.Laws.Stream.Pushes
import Sponge.Laws.Tcp.Receiver
import Sponge.Lib.Run

/-!
# Laws.Tcp.Strays — segments out of place

What a receiver does with segments that have no place in its stream: a FIN behind the one it has
consumed, a byte in the place of the SYN. The segments are any at all; nothing here asks that a conformant
peer sent them. Those at the right edge of the window have a module of their own.

Each law holds of most such segments, and the source breaks each in some corner.

- A receiver that has ended keeps its number unless a FIN is numbered exactly there
  (`fin_consumed_once`): `_last_no` is taken from every FIN, and the number moves on whenever it is one
  short of it. What it has written stays as it is even then (`ended_writes_nothing`).
- A byte in the place of the SYN has the stream index `-1`. The 64-bit sum of that index and a length
  wraps back to a real index, so the byte is dropped as long as everything behind it is assembled already
  (`unindexed_byte_ignored`), and is stored at `2 ^ 64 - 1` otherwise.
-/

namespace Sponge

open Word64 (add sub add_eq sub_eq)

/-- The segment without its first byte: the number behind it, and the rest of the payload. -/
def TCPSegment.behead (seg : TCPSegment) : TCPSegment where
  header := { seg.header with seqno := ⟨seg.header.seqno.rawValue + 1⟩ }
  payload := Buffer.ofString (seg.payload.str.drop 1)

theorem TCPSegment.behead_str (seg : TCPSegment) : seg.behead.payload.str = seg.payload.str.drop 1 :=
  Buffer.str_ofString _

namespace TCPReceiver

variable {r r' : TCPReceiver} {seg : TCPSegment} {capacity : Nat}

/-! ## What every event keeps -/

/-- What every stage keeps, whatever arrives: the reassembler is at rest and counts its bytes, payloads are
taken behind the SYN, and the numbers are 64-bit numbers. -/
structure Sane (capacity : Nat) (r : TCPReceiver) : Prop where
  rested : r.reassembler.Rested
  counts : r.reassembler.Counts
  sized : r.Sized
  cap : r.reassembler.capacity = capacity
  whole : r.capacity = capacity
  receiving : r.receivedSyn = true → r.state = .synReceive ∨ r.state = .finReceive
  ack64 : r.ackNo64 < 2 ^ 64
  last64 : r.lastNo < 2 ^ 64

theorem Sane.acceptSyn (h : Sane capacity r) (seg : TCPSegment) : Sane capacity (r.acceptSyn seg) := by
  unfold TCPReceiver.acceptSyn
  split
  · exact { h with receiving := fun _ => .inl rfl, ack64 := Word64.add_lt _ _ }
  · exact h

theorem Sane.advance (h : Sane capacity r) {pushed : StreamReassembler} (rested : pushed.Rested)
    (counts : pushed.Counts) (output : pushed.output.cap = r.reassembler.output.cap)
    (cap : pushed.capacity = r.reassembler.capacity) : Sane capacity (r.advance pushed) :=
  ⟨rested, counts, h.sized.advance output, cap.trans h.cap, h.whole, h.receiving, Word64.add_lt _ _,
    h.last64⟩

theorem Sane.acceptPayload (h : Sane capacity r) (seg : TCPSegment) :
    Sane capacity (r.acceptPayload seg) := by
  rcases acceptPayload_eq r seg with heq | heq
  · rw [heq]
    exact h
  · obtain ⟨n, -, -, houtput⟩ := r.reassembler.pushSubstring_output (r.cutToWindow seg) (r.pushIndex seg)
      seg.header.fin
    rw [heq]
    exact h.advance (StreamReassembler.rested_push _ _ _ _) (h.counts.push _ _ _) houtput
      (StreamReassembler.pushSubstring_capacity _ _ _ _)

theorem Sane.noteFin (h : Sane capacity r) (seg : TCPSegment) : Sane capacity (r.noteFin seg) := by
  unfold TCPReceiver.noteFin
  split
  · exact { h with receiving := fun _ => .inr rfl, last64 := Word64.add_lt _ _ }
  · exact h

theorem Sane.consumeFin (h : Sane capacity r) : Sane capacity r.consumeFin := by
  unfold TCPReceiver.consumeFin
  split
  · exact { h with ack64 := h.last64 }
  · exact h

theorem Sane.endStream (h : Sane capacity r) : Sane capacity r.endStream := by
  unfold TCPReceiver.endStream
  split
  · exact { h with rested := h.rested.setOutput fun _ => rfl }
  · exact h

/-- Until the output ends, the acknowledgment number is not ahead of the byte behind those written. -/
def Behind (r : TCPReceiver) : Prop :=
  r.streamOut.isEnd = false → r.ackNo64 ≤ r.streamOut.totalBytesWritten + 1

theorem Behind.acceptSyn (h : r.Behind) (seg : TCPSegment) : (r.acceptSyn seg).Behind := by
  unfold TCPReceiver.acceptSyn
  split
  · intro _
    dsimp only
    rw [unwrap_self]
    exact Nat.le_add_left _ _
  · exact h

theorem Behind.advance (h : r.Behind) {pushed : StreamReassembler}
    (more : r.reassembler.output.totalBytesWritten ≤ pushed.output.totalBytesWritten)
    (ended : r.reassembler.output.isEnd = true → pushed.output.isEnd = true) :
    (r.advance pushed).Behind := by
  intro hopen
  have hmod : add r.ackNo64 (pushed.output.totalBytesWritten - r.streamOut.totalBytesWritten) ≤
      r.ackNo64 + (pushed.output.totalBytesWritten - r.streamOut.totalBytesWritten) := Nat.mod_le _ _
  have hbehind := h (Bool.eq_false_iff.mpr fun hc => absurd (ended hc) (Bool.eq_false_iff.mp hopen))
  show add r.ackNo64 (pushed.output.totalBytesWritten - r.streamOut.totalBytesWritten) ≤
    pushed.output.totalBytesWritten + 1
  unfold streamOut at *
  omega

theorem Behind.acceptPayload (h : r.Behind) (seg : TCPSegment) : (r.acceptPayload seg).Behind := by
  rcases acceptPayload_eq r seg with heq | heq
  · rw [heq]
    exact h
  · rw [heq]
    exact h.advance (StreamReassembler.pushSubstring_written_le _ _ _ _) fun hend =>
      (StreamReassembler.pushSubstring_isEnd _ _ _ _).mpr (.inl hend)

/-- A FIN that is consumed ends the output. -/
theorem Behind.finish (h : r.Behind) : r.consumeFin.endStream.Behind := by
  unfold TCPReceiver.consumeFin
  split
  next hc =>
    intro hopen
    rw [TCPReceiver.endStream, if_pos ⟨rfl, hc.1⟩] at hopen
    cases hopen
  next =>
    unfold TCPReceiver.endStream
    split
    · intro hopen
      cases hopen
    · exact h

/-- What holds between two events: no FIN waits to be consumed, and an output that has not ended has not
been acknowledged to its end. -/
structure Kept (capacity : Nat) (r : TCPReceiver) : Prop extends Sane capacity r where
  settled : r.Settled
  unmet : r.streamOut.isEnd = false → ¬(r.ackNo64 = r.lastNo ∧ r.receivedFin = true)
  behind : r.Behind

theorem kept_new (capacity : Nat) : Kept capacity (new capacity) where
  rested := StreamReassembler.rested_new capacity
  counts := rfl
  sized := rfl
  cap := rfl
  whole := rfl
  receiving := nofun
  ack64 := Nat.two_pow_pos 64
  last64 := Nat.two_pow_pos 64
  settled := nofun
  unmet := nofun
  behind := fun _ => Nat.zero_le _

theorem Kept.popOutput (h : Kept capacity r) (len : Nat) : Kept capacity (r.popOutput len) :=
  { h with rested := h.rested.popOutput len }

/-- An output that the last stage leaves open has not been acknowledged to its end. -/
theorem endStream_unmet (r : TCPReceiver) (open_ : r.endStream.streamOut.isEnd = false) :
    ¬(r.endStream.ackNo64 = r.endStream.lastNo ∧ r.endStream.receivedFin = true) := by
  unfold endStream at open_ ⊢
  split at open_
  · cases open_
  next hc =>
    rw [if_neg hc]
    exact hc

/-- **Every segment keeps it.** -/
theorem Kept.segment (h : Kept capacity r) (seg : TCPSegment) : Kept capacity (r.segmentReceived seg) where
  toSane := ((((h.toSane.acceptSyn seg).acceptPayload seg).noteFin seg).consumeFin).endStream
  settled := segmentReceived_settled r seg
  unmet := endStream_unmet _
  behind := by
    have hpaid := (h.behind.acceptSyn seg).acceptPayload seg
    unfold segmentReceived
    generalize (r.acceptSyn seg).acceptPayload seg = paid at *
    apply Behind.finish
    unfold TCPReceiver.noteFin
    split
    · exact hpaid
    · exact hpaid

theorem kept_of_run {ok : TCPReceiver → Event → Prop} (run : Runs.Reach handle ok (new capacity) r) :
    Kept capacity r := by
  refine run.invariant (Kept capacity) (kept_new capacity) fun r event h _ => ?_
  cases event with
  | segment seg => exact h.segment seg
  | read len => exact h.popOutput len

/-- With no FIN to consume and none met, the last stages do nothing. -/
theorem finish_of_settled (settled : r.Settled) (unmet : ¬(r.ackNo64 = r.lastNo ∧ r.receivedFin = true)) :
    r.consumeFin.endStream = r := by
  have hconsume : r.consumeFin = r := if_neg settled
  rw [hconsume]
  exact if_neg unmet

/-! ## A receiver that has ended -/

/-- A push that writes nothing moves no number. -/
theorem advance_of_same (ack64 : r.ackNo64 < 2 ^ 64) {pushed : StreamReassembler}
    (same : pushed.output.totalBytesWritten = r.streamOut.totalBytesWritten) :
    r.advance pushed = { r with reassembler := pushed } := by
  unfold advance ByteStream.bytesWritten
  rw [same, Nat.sub_self, add_eq ack64, Nat.add_zero]

/-- An output that has ended takes nothing from the payload stage. -/
theorem acceptPayload_of_end (seg : TCPSegment) (ended : r.streamOut.isEnd = true) :
    (r.acceptPayload seg).streamOut = r.streamOut := by
  unfold streamOut
  rcases acceptPayload_eq r seg with heq | heq
  · rw [heq]
  · rw [heq, advance_reassembler, StreamReassembler.pushSubstring_of_end _ _ _ ended]

/-- The receiver has ended as `r` did: its numbers are those of `r`, and no FIN noted is numbered next. -/
structure Over (r r' : TCPReceiver) : Prop where
  syn : r'.receivedSyn = true
  isn_eq : r'.isn = r.isn
  ended : r'.streamOut.isEnd = true
  ack_eq : r'.ackNo64 = r.ackNo64
  written : r'.streamOut.totalBytesWritten = r.streamOut.totalBytesWritten
  behind : add r.ackNo64 1 ≠ r'.lastNo

/-- A FIN is not numbered where the acknowledgment number stands. -/
def Elsewhere (r : TCPReceiver) : Event → Prop
  | .segment seg => seg.header.fin = true →
      add (unwrap seg.header.seqno r.isn r.ackNo64) seg.lengthInSequenceSpace ≠ add r.ackNo64 1
  | .read _ => True

instance (r : TCPReceiver) : (event : Event) → Decidable (r.Elsewhere event)
  | .segment _ => inferInstanceAs (Decidable (_ → _))
  | .read _ => inferInstanceAs (Decidable True)

/-- A segment without a FIN numbered next leaves the numbers alone. -/
theorem Over.segment (h : Over r r') (ack64 : r.ackNo64 < 2 ^ 64) (ok : r'.Elsewhere (.segment seg)) :
    Over r (r'.segmentReceived seg) := by
  have hpaid : ∃ pushed, r'.acceptPayload seg = { r' with reassembler := pushed } ∧
      pushed.output = r'.reassembler.output := by
    rcases acceptPayload_eq r' seg with heq | heq
    · exact ⟨r'.reassembler, heq, rfl⟩
    · have houtput := StreamReassembler.pushSubstring_of_end (r'.cutToWindow seg) (r'.pushIndex seg)
        seg.header.fin h.ended
      generalize r'.reassembler.pushSubstring _ _ _ = pushed at *
      refine ⟨pushed, heq.trans (advance_of_same (h.ack_eq ▸ ack64) ?_), houtput⟩
      exact congrArg ByteStream.totalBytesWritten houtput
  obtain ⟨pushed, hpaid, houtput⟩ := hpaid
  have hnoted : ∃ last state fin, (r'.acceptPayload seg).noteFin seg =
      { r' with reassembler := pushed, lastNo := last, state := state, receivedFin := fin } ∧
      add r.ackNo64 1 ≠ last := by
    rw [hpaid]
    unfold noteFin
    split
    next hfin =>
      refine ⟨_, _, _, rfl, fun hc => ok hfin ?_⟩
      rw [h.ack_eq] at hc ⊢
      exact hc.symm
    next => exact ⟨_, _, _, rfl, h.behind⟩
  obtain ⟨last, state, fin, hnoted, hbehind⟩ := hnoted
  have hconsume : ((r'.acceptPayload seg).noteFin seg).consumeFin = (r'.acceptPayload seg).noteFin seg := by
    rw [hnoted]
    refine if_neg fun hc => hbehind ?_
    rw [← h.ack_eq]
    exact hc.2
  have hwritten : pushed.output.totalBytesWritten = r.streamOut.totalBytesWritten := by
    rw [houtput]
    exact h.written
  unfold segmentReceived
  rw [acceptSyn_of_syn seg h.syn, hconsume, hnoted]
  unfold endStream
  split
  · exact ⟨h.syn, h.isn_eq, rfl, h.ack_eq, hwritten, hbehind⟩
  · refine ⟨h.syn, h.isn_eq, ?_, h.ack_eq, hwritten, hbehind⟩
    show pushed.output.isEnd = true
    rw [houtput]
    exact h.ended

/-- An output that has ended stays so, and takes no byte. -/
theorem handle_ended (ended : r.streamOut.isEnd = true) (event : Event) :
    (r.handle event).streamOut.isEnd = true ∧
      (r.handle event).streamOut.totalBytesWritten = r.streamOut.totalBytesWritten := by
  cases event with
  | segment seg =>
    have hsyn : (r.acceptSyn seg).streamOut = r.streamOut := by
      unfold streamOut
      rw [acceptSyn_reassembler]
    have hpaid := (acceptPayload_of_end seg (hsyn ▸ ended)).trans hsyn
    show ((r.segmentReceived seg).reassembler.output.isEnd = true) ∧
      (r.segmentReceived seg).reassembler.output.totalBytesWritten = _
    unfold segmentReceived
    generalize (r.acceptSyn seg).acceptPayload seg = paid at *
    have hsame : (paid.noteFin seg).consumeFin.reassembler.output = r.streamOut := by
      rw [consumeFin_reassembler, noteFin_reassembler]
      exact hpaid
    have hwritten := congrArg ByteStream.totalBytesWritten hsame
    unfold endStream
    split
    · exact ⟨rfl, hwritten⟩
    · rw [hsame]
      exact ⟨ended, rfl⟩
  | read len => exact ⟨ended, rfl⟩

/-- **An output that has ended takes no byte any more**, whatever arrives, a second FIN included. -/
theorem ended_writes_nothing (ended : r.streamOut.inputEnded = true)
    (later : Runs.Reach handle (fun _ _ => True) r r') :
    r'.streamOut.bytesWritten = r.streamOut.bytesWritten := by
  refine (later.invariant (fun r' => r'.streamOut.isEnd = true ∧
    r'.streamOut.totalBytesWritten = r.streamOut.totalBytesWritten) ⟨ended, rfl⟩ fun r' event ih _ => ?_).2
  obtain ⟨hend, hwritten⟩ := handle_ended ih.1 event
  exact ⟨hend, hwritten.trans ih.2⟩

/-- **The FIN is consumed once, as long as no other FIN is numbered behind it.** In every run that starts
with a SYN, once the output has ended and the FIN is acknowledged, nothing that follows moves the
acknowledgment number or writes a byte. -/
theorem fin_consumed_once {first : TCPSegment} (syn : first.header.syn = true)
    (run : Runs.Reach handle (fun _ _ => True) ((new capacity).segmentReceived first) r)
    (ended : r.streamOut.inputEnded = true)
    (consumed : r.receivedFin = true ∧ r.ackNo64 = r.lastNo)
    (later : Runs.Reach handle Elsewhere r r') :
    r'.ackno = r.ackno ∧ r'.streamOut.bytesWritten = r.streamOut.bytesWritten := by
  have hkept : Kept capacity r ∧ r.receivedSyn = true := by
    refine run.invariant (fun r => Kept capacity r ∧ r.receivedSyn = true) ?_ fun r event ih _ => ?_
    · refine ⟨(kept_new capacity).segment first, ?_⟩
      rw [(segmentReceived_frame _ first).2, syn, Bool.or_true]
    · cases event with
      | segment seg =>
        refine ⟨ih.1.segment seg, ?_⟩
        show (r.segmentReceived seg).receivedSyn = true
        rw [(segmentReceived_frame _ seg).2, ih.2, Bool.true_or]
      | read len => exact ⟨ih.1.popOutput len, ih.2⟩
  obtain ⟨hkept, hsyn⟩ := hkept
  have hbehind : add r.ackNo64 1 ≠ r.lastNo := fun hc => hkept.settled ⟨consumed.1, hc⟩
  have hover : Over r r' := by
    refine later.invariant (Over r) ⟨hsyn, rfl, ended, rfl, rfl, hbehind⟩ fun r' event ih ok => ?_
    cases event with
    | segment seg => exact ih.segment hkept.ack64 ok
    | read len => exact ⟨ih.syn, ih.isn_eq, ih.ended, ih.ack_eq, ih.written, ih.behind⟩
  refine ⟨?_, hover.written⟩
  unfold ackno
  rw [hover.syn, hsyn, hover.ack_eq, hover.isn_eq]

/-- The last segment comes again, the reader reads, and a FIN far behind arrives. -/
theorem fin_consumed_once_resent :
    let first : TCPSegment := { header := { seqno := ⟨7⟩, syn := true } }
    let last : TCPSegment := { header := { seqno := ⟨8⟩, fin := true }, payload := Buffer.ofString [1] }
    let far : TCPSegment := { header := { seqno := ⟨12⟩, fin := true }, payload := Buffer.ofString [2] }
    let r := [Event.segment last].foldl handle ((new 4).segmentReceived first)
    let r' := [.segment last, .read 1, .segment far].foldl handle r
    r'.ackno = r.ackno ∧ r'.streamOut.bytesWritten = r.streamOut.bytesWritten :=
  fin_consumed_once rfl (Runs.reach_foldl .start (by decide +kernel)) (by decide +kernel) (by decide +kernel)
    (Runs.reach_foldl .start (by decide +kernel))

/-- **A second FIN is consumed behind the first.** It is numbered where the acknowledgment number stands. -/
theorem fin_consumed_twice :
    let first : TCPSegment := { header := { seqno := ⟨7⟩, syn := true } }
    let fin (n : UInt32) : TCPSegment := { header := { seqno := ⟨n⟩, fin := true } }
    let r := [Event.segment (fin 8)].foldl handle ((new 4).segmentReceived first)
    r.streamOut.inputEnded = true ∧ r.receivedFin = true ∧ r.ackNo64 = r.lastNo ∧
      r.ackno = some ⟨9⟩ ∧ (r.segmentReceived (fin 9)).ackno = some ⟨10⟩ := by
  decide +kernel

/-! ## What the last stages leave alone -/

/-- What follows the payload stage touches no byte. -/
theorem segmentReceived_bytes (syn : r.receivedSyn = true) (seg : TCPSegment) :
    (r.segmentReceived seg).reassembler = { (r.acceptPayload seg).reassembler with
      output := { (r.acceptPayload seg).reassembler.output with
        isEnd := (r.segmentReceived seg).streamOut.isEnd } } := by
  unfold segmentReceived streamOut
  rw [acceptSyn_of_syn seg syn]
  conv_lhs => rw [endStream_frame]
  dsimp only
  rw [consumeFin_reassembler, noteFin_reassembler]

theorem segmentReceived_written (syn : r.receivedSyn = true) :
    (r.segmentReceived seg).streamOut.bytesWritten =
      (r.acceptPayload seg).reassembler.output.totalBytesWritten := by
  unfold streamOut
  rw [segmentReceived_bytes syn]
  rfl

theorem segmentReceived_expectIdx (r : TCPReceiver) (seg : TCPSegment) :
    (r.segmentReceived seg).reassembler.expectIdx =
      ((r.acceptSyn seg).acceptPayload seg).reassembler.expectIdx := by
  unfold segmentReceived
  rw [endStream_frame, consumeFin_reassembler, noteFin_reassembler]

/-- The expected index never moves back. -/
theorem handle_expectIdx_le (r : TCPReceiver) (event : Event) :
    r.reassembler.expectIdx ≤ (r.handle event).reassembler.expectIdx := by
  cases event with
  | segment seg =>
    show _ ≤ (r.segmentReceived seg).reassembler.expectIdx
    rw [segmentReceived_expectIdx, ← acceptSyn_reassembler r seg]
    rcases acceptPayload_eq (r.acceptSyn seg) seg with heq | heq
    · rw [heq]
    · obtain ⟨before, moved, hpush, -, -, hmoved⟩ := (r.acceptSyn seg).reassembler.pushSubstring_moves
        ((r.acceptSyn seg).cutToWindow seg) ((r.acceptSyn seg).pushIndex seg) seg.header.fin
      rw [heq, advance_reassembler, hpush, StreamReassembler.endOutput_frame]
      exact hmoved ▸ Nat.le_add_right _ _
  | read len => exact Nat.le_refl _

/-! ## Receivers that differ by an end index -/

/-- The two show the same, and have written as much. -/
def Same (r r' : TCPReceiver) : Prop :=
  r.shown = r'.shown ∧ r.streamOut.bytesWritten = r'.streamOut.bytesWritten

/-- From here on the two are the same, whatever happens. -/
def SameLater (r r' : TCPReceiver) : Prop :=
  ∀ events : List Event, Same (events.foldl handle r) (events.foldl handle r')

/-- None of the events brings the expected index to `n` while the output is open. -/
def Unmet (n : Nat) : TCPReceiver → List Event → Prop
  | _, [] => True
  | r, event :: events =>
    (r.streamOut.isEnd = true ∨ (r.handle event).reassembler.expectIdx ≠ n) ∧
      Unmet n (r.handle event) events

instance (n : Nat) : ∀ (r : TCPReceiver) (events : List Event), Decidable (Unmet n r events)
  | _, [] => inferInstanceAs (Decidable True)
  | r, event :: events =>
    have := instDecidableUnmet n (r.handle event) events
    inferInstanceAs (Decidable (_ ∧ _))

/-- An index that has been passed is met no more. -/
theorem unmet_of_passed {n : Nat} (h : r.reassembler.Passed n) (events : List Event) : Unmet n r events := by
  induction events generalizing r with
  | nil => trivial
  | cons event events ih =>
    have hnext : (r.handle event).reassembler.Passed n :=
      h.imp (fun hend => (handle_ended hend event).1) fun hlt =>
        Nat.lt_of_lt_of_le hlt (r.handle_expectIdx_le event)
    refine ⟨h.imp_right fun hlt => ?_, ih hnext⟩
    exact Nat.ne_of_gt (Nat.lt_of_lt_of_le hlt (r.handle_expectIdx_le event))

/-- The receiver with another end index. -/
def endsAt (r : TCPReceiver) (n : Nat) : TCPReceiver := { r with reassembler := r.reassembler.endsAt n }

/-- Equal, but that the first has an end index that has been passed, in the place of `e`. -/
def EndAlike (e : Nat) (r r' : TCPReceiver) : Prop :=
  r = r' ∨ ∃ n, r = r'.endsAt n ∧ r'.reassembler.Passed n ∧ r'.reassembler.eofIndex = e

variable {e : Nat}

theorem cutToWindow_endsAt (r : TCPReceiver) (n : Nat) (seg : TCPSegment) :
    (r.endsAt n).cutToWindow seg = r.cutToWindow seg := by
  have hisn : (r.endsAt n).isn = r.isn := rfl
  have hack : (r.endsAt n).ackNo64 = r.ackNo64 := rfl
  have hwindow : (r.endsAt n).windowSize = r.windowSize := rfl
  unfold cutToWindow
  rw [hisn, hack, hwindow]

theorem pushIndex_endsAt (r : TCPReceiver) (n : Nat) (seg : TCPSegment) :
    (r.endsAt n).pushIndex seg = r.pushIndex seg := by
  have hisn : (r.endsAt n).isn = r.isn := rfl
  have hack : (r.endsAt n).ackNo64 = r.ackNo64 := rfl
  unfold pushIndex
  rw [hisn, hack]

theorem endAlike_advance (r : TCPReceiver) (n : Nat) {pushed : StreamReassembler} {n' : Nat}
    (h : n' = pushed.eofIndex ∨ pushed.Passed n' ∧ pushed.eofIndex = e) :
    EndAlike e ((r.endsAt n).advance (pushed.endsAt n')) (r.advance pushed) := by
  rcases h with rfl | hlater
  · exact .inl rfl
  · exact .inr ⟨n', rfl, hlater⟩

/-- The payload stage does not tell them apart, unless it comes to the end index. -/
theorem EndAlike.acceptPayload (h : EndAlike e r r') (seg : TCPSegment)
    (unmet : r'.streamOut.isEnd = true ∨ (r'.acceptPayload seg).reassembler.expectIdx ≠ e) :
    EndAlike e (r.acceptPayload seg) (r'.acceptPayload seg) := by
  rcases h with rfl | ⟨n, rfl, hsame⟩
  · exact .inl rfl
  by_cases hnil : seg.payload.str = []
  · rw [acceptPayload_of_nil _ hnil, acceptPayload_of_nil _ hnil]
    exact .inr ⟨n, rfl, hsame⟩
  by_cases hstate : r'.state = .synReceive ∨ r'.state = .finReceive
  · rw [acceptPayload_of_payload hstate hnil, advance_reassembler, ← hsame.2] at unmet
    obtain ⟨n', hpush, hcases⟩ := hsame.1.push (r'.cutToWindow seg) (r'.pushIndex seg) seg.header.fin unmet
    have hpaid := acceptPayload_of_payload (r := r'.endsAt n) hstate hnil
    have hbuf : (r'.endsAt n).reassembler = r'.reassembler.endsAt n := rfl
    rw [cutToWindow_endsAt, pushIndex_endsAt, hbuf, hpush] at hpaid
    rw [hsame.2] at hcases
    rw [hpaid, acceptPayload_of_payload hstate hnil]
    exact endAlike_advance r' n hcases
  · have hskip : ∀ p : TCPReceiver, ¬(p.state = .synReceive ∨ p.state = .finReceive) →
        p.acceptPayload seg = p := fun p hlisten => if_neg hlisten
    rw [hskip _ hstate, hskip (r'.endsAt n) hstate]
    exact .inr ⟨n, rfl, hsame⟩

/-- Nor do the stages behind it. -/
theorem EndAlike.finish (h : EndAlike e r r') (seg : TCPSegment) :
    EndAlike e (r.noteFin seg).consumeFin.endStream (r'.noteFin seg).consumeFin.endStream := by
  rcases h with rfl | ⟨n, rfl, hsame⟩
  · exact .inl rfl
  · have hnote : (r'.endsAt n).noteFin seg = (r'.noteFin seg).endsAt n := by
      unfold noteFin
      split <;> rfl
    have hkept : (r'.noteFin seg).reassembler.Passed n ∧ (r'.noteFin seg).reassembler.eofIndex = e := by
      rw [noteFin_reassembler]
      exact hsame
    rw [hnote]
    generalize r'.noteFin seg = noted at *
    have hconsume : (noted.endsAt n).consumeFin = noted.consumeFin.endsAt n := by
      unfold consumeFin endsAt
      dsimp only
      split <;> rfl
    have hkept : noted.consumeFin.reassembler.Passed n ∧ noted.consumeFin.reassembler.eofIndex = e := by
      rw [consumeFin_reassembler]
      exact hkept
    rw [hconsume]
    generalize noted.consumeFin = consumed at *
    refine .inr ⟨n, ?_, ?_⟩
    · unfold endStream endsAt
      dsimp only
      split <;> rfl
    · unfold endStream
      split
      · exact ⟨.inl rfl, hkept.2⟩
      · exact hkept

theorem EndAlike.handle (h : EndAlike e r r') (event : Event)
    (unmet : r'.streamOut.isEnd = true ∨ (r'.handle event).reassembler.expectIdx ≠ e) :
    EndAlike e (r.handle event) (r'.handle event) := by
  cases event with
  | segment seg =>
    have hsyn : EndAlike e (r.acceptSyn seg) (r'.acceptSyn seg) := by
      rcases h with rfl | ⟨n, rfl, hsame⟩
      · exact .inl rfl
      · refine .inr ⟨n, ?_, ?_⟩
        · unfold acceptSyn endsAt
          dsimp only
          split <;> rfl
        · rw [acceptSyn_reassembler]
          exact hsame
    have hunmet : (r'.acceptSyn seg).streamOut.isEnd = true ∨
        ((r'.acceptSyn seg).acceptPayload seg).reassembler.expectIdx ≠ e := by
      rw [← segmentReceived_expectIdx]
      unfold streamOut
      rw [acceptSyn_reassembler]
      exact unmet
    exact (hsyn.acceptPayload seg hunmet).finish seg
  | read len =>
    rcases h with rfl | ⟨n, rfl, hsame⟩
    · exact .inl rfl
    · exact .inr ⟨n, rfl, hsame⟩

/-- **They are not told apart while the end index is not met.** -/
theorem EndAlike.same {events : List Event} (h : EndAlike e r r') (unmet : Unmet e r' events) :
    Same (events.foldl TCPReceiver.handle r) (events.foldl TCPReceiver.handle r') := by
  induction events generalizing r r' with
  | nil =>
    rcases h with rfl | ⟨n, rfl, -⟩
    · exact ⟨rfl, rfl⟩
    · exact ⟨rfl, rfl⟩
  | cons event events ih => exact ih (h.handle event unmet.1) unmet.2

/-! ## The cut at the right edge -/

/-- **At or below the right edge the cut keeps what lies below it.** -/
theorem cutToWindow_below (few : r.rightEdge < 2 ^ 64)
    (stop : unwrap seg.header.seqno r.isn r.ackNo64 + seg.lengthInSequenceSpace < 2 ^ 64)
    (below : unwrap seg.header.seqno r.isn r.ackNo64 ≤ r.rightEdge) :
    r.cutToWindow seg =
      seg.payload.str.take (r.rightEdge - unwrap seg.header.seqno r.isn r.ackNo64) := by
  have hlen : seg.payload.str.length ≤ seg.lengthInSequenceSpace := by
    unfold TCPSegment.lengthInSequenceSpace
    omega
  have hedge : add r.ackNo64 r.windowSize = r.rightEdge := add_eq few
  unfold cutToWindow
  dsimp only
  rw [hedge, add_eq stop, Buffer.copy_eq]
  split
  next hcut =>
    rw [sub_eq (Nat.le_of_lt hcut) stop, sub_eq (by omega) (by omega)]
    congr 1
    omega
  next hcut => rw [List.take_of_length_le (by omega)]

/-! ## A byte in the place of the SYN -/

/-- A segment whose first byte has the number of the SYN. -/
structure Unindexed (r : TCPReceiver) (seg : TCPSegment) : Prop where
  noSyn : seg.header.syn = false
  zero : unwrap seg.header.seqno r.isn r.ackNo64 = 0
  nonempty : seg.payload.str ≠ []
  short : seg.payload.str.length < 2 ^ 63
  started : 0 < r.ackNo64
  few : r.rightEdge < 2 ^ 63

namespace Unindexed

theorem ackNo64_lt (h : Unindexed r seg) : r.ackNo64 < 2 ^ 63 :=
  Nat.lt_of_le_of_lt (Nat.le_add_right _ _) h.few

/-- The byte behind it is the first of the stream. -/
theorem unwrap_behead (h : Unindexed r seg) : unwrap seg.behead.header.seqno r.isn r.ackNo64 = 1 := by
  have hlt := h.ackNo64_lt
  have hisn := wrap_unwrap seg.header.seqno r.isn r.ackNo64
  rw [h.zero, wrap_zero] at hisn
  have hnear := unwrap_near seg.header.seqno r.isn (show r.ackNo64 < 2 ^ 64 - 2 ^ 31 by omega)
  rw [h.zero] at hnear
  show unwrap ⟨seg.header.seqno.rawValue + 1⟩ r.isn r.ackNo64 = 1
  rw [← hisn, ← wrap_one]
  exact unwrap_wrap r.isn (by omega) (by omega) (by omega)

theorem length_lt (h : Unindexed r seg) : seg.lengthInSequenceSpace < 2 ^ 64 - 1 := by
  have hshort := h.short
  unfold TCPSegment.lengthInSequenceSpace
  rw [h.noSyn, if_neg Bool.false_ne_true]
  split <;> omega

theorem length_behead (h : Unindexed r seg) :
    seg.behead.lengthInSequenceSpace + 1 = seg.lengthInSequenceSpace := by
  have hpos := List.length_pos_iff.mpr h.nonempty
  unfold TCPSegment.lengthInSequenceSpace
  rw [seg.behead_str, List.length_drop]
  show seg.payload.str.length - 1 + (if seg.header.syn then 1 else 0) +
    (if seg.header.fin then 1 else 0) + 1 = _
  omega

/-- The window cuts the two at the same place. -/
theorem cut_behead (h : Unindexed r seg) :
    r.cutToWindow seg.behead = (r.cutToWindow seg).drop 1 ∧
      (r.cutToWindow seg).length = min seg.payload.str.length r.rightEdge := by
  have hpos := List.length_pos_iff.mpr h.nonempty
  have hfew := h.few
  have hedge : r.ackNo64 ≤ r.rightEdge := Nat.le_add_right _ _
  have hstarted := h.started
  have hlt := h.length_lt
  have hlen := h.length_behead
  have hzero := h.zero
  have hone := h.unwrap_behead
  have hcut : r.cutToWindow seg = seg.payload.str.take r.rightEdge := by
    rw [cutToWindow_below (by omega) (by omega) (by omega), hzero, Nat.sub_zero]
  constructor
  · rw [cutToWindow_below (by omega) (by omega) (by omega), hone, seg.behead_str, hcut, List.drop_take]
  · rw [hcut, List.length_take, Nat.min_comm]

theorem cut_pos (h : Unindexed r seg) : 0 < min seg.payload.str.length r.rightEdge := by
  have hpos := List.length_pos_iff.mpr h.nonempty
  have hstarted := h.started
  have hedge : r.ackNo64 ≤ r.rightEdge := Nat.le_add_right _ _
  omega

/-- The first byte has the index `-1`, and the byte behind it the index `0`. -/
theorem pushIndex_behead (h : Unindexed r seg) :
    r.pushIndex seg = 2 ^ 64 - 1 ∧ r.pushIndex seg.behead = 0 := by
  have hsyn : seg.behead.header.syn = false := h.noSyn
  unfold pushIndex
  rw [h.noSyn, hsyn, h.zero, h.unwrap_behead]
  exact ⟨rfl, rfl⟩

/-- The index `-1` wraps: what is pushed there ends where the rest ends. If that is assembled already, both
pushes are dropped. -/
theorem push_behead (h : Unindexed r seg)
    (known : min seg.payload.str.length r.rightEdge ≤ r.reassembler.expectIdx + 1) :
    let noted := { r.reassembler with
      eofIndex := if seg.header.fin then (r.cutToWindow seg).length - 1 else r.reassembler.eofIndex }
    r.reassembler.pushSubstring (r.cutToWindow seg) (r.pushIndex seg) seg.header.fin =
        noted.fixCap.assem.writeStr.endOutput ∧
      r.reassembler.pushSubstring (r.cutToWindow seg.behead) (r.pushIndex seg.behead)
        seg.behead.header.fin = noted.fixCap.assem.writeStr.endOutput := by
  obtain ⟨hcut, hlen⟩ := h.cut_behead
  obtain ⟨hindex, hindex'⟩ := h.pushIndex_behead
  have hpos := h.cut_pos
  have hshort := h.short
  have hstop : add (2 ^ 64 - 1) (r.cutToWindow seg).length = (r.cutToWindow seg).length - 1 := by
    unfold add
    omega
  have hstop' : add 0 ((r.cutToWindow seg).drop 1).length = (r.cutToWindow seg).length - 1 := by
    rw [List.length_drop, add_eq (by omega), Nat.zero_add]
  intro noted
  constructor
  · rw [hindex, StreamReassembler.pushSubstring_of_known (by rw [hstop]; omega), hstop]
  · rw [hindex', hcut, StreamReassembler.pushSubstring_of_known (by rw [hstop']; omega), hstop']
    rfl

/-- The numbers of the two are one apart, wherever the acknowledgment number comes to. Only half a period
behind the SYN the first is taken for the next period and the second is not. -/
theorem unwrap_later (h : Unindexed r seg) {later : Nat}
    (elsewhere : later = r.ackNo64 ∨ later % 2 ^ 32 ≠ 2 ^ 31) (len : Nat) :
    add (unwrap seg.header.seqno r.isn later) (len + 1) =
      add (unwrap seg.behead.header.seqno r.isn later) len := by
  rcases elsewhere with rfl | hne
  · rw [h.zero, h.unwrap_behead]
    unfold add
    omega
  · have hisn : wrap 0 r.isn = seg.header.seqno := h.zero ▸ wrap_unwrap seg.header.seqno r.isn r.ackNo64
    have hisn' : wrap 1 r.isn = seg.behead.header.seqno :=
      h.unwrap_behead ▸ wrap_unwrap seg.behead.header.seqno r.isn r.ackNo64
    rw [← hisn, ← hisn']
    simp only [unwrap, wrap_sub_isn, N, add]
    generalize later % 2 ^ 32 = offset at *
    by_cases hhigh : 2 ^ 31 ≤ offset
    · rw [if_neg (by omega), if_pos (by omega), if_neg (by omega), if_pos (by omega)]
      omega
    · rw [if_neg (by omega), if_neg (by omega), if_neg (by omega), if_neg (by omega)]
      omega

/-- So a FIN has the same number in both. -/
theorem noteFin_behead (h : Unindexed r seg) {paid : TCPReceiver} (isn : paid.isn = r.isn)
    (elsewhere : seg.header.fin = true → paid.ackNo64 = r.ackNo64 ∨ paid.ackNo64 % 2 ^ 32 ≠ 2 ^ 31) :
    paid.noteFin seg = paid.noteFin seg.behead := by
  unfold noteFin
  show (if seg.header.fin = true then _ else _) = if seg.header.fin = true then _ else _
  split
  next hfin => rw [isn, ← h.length_behead, h.unwrap_later (elsewhere hfin)]
  next => rfl

/-- **More than one byte**: the payload stage does the same with both. -/
theorem segment_many (h : Unindexed r seg) (kept : Kept capacity r) (syn : r.receivedSyn = true)
    (known : min seg.payload.str.length r.rightEdge ≤ r.reassembler.expectIdx + 1)
    (many : 1 < seg.payload.str.length)
    (elsewhere : seg.header.fin = true → r.streamOut.isEnd = true ∨
      (r.ackNo64 + min r.reassembler.assemBuf.length r.streamOut.remainingCapacity) % 2 ^ 32 ≠ 2 ^ 31) :
    r.segmentReceived seg = r.segmentReceived seg.behead := by
  have hne : seg.behead.payload.str ≠ [] := by
    rw [seg.behead_str, Ne, List.drop_eq_nil_iff]
    omega
  obtain ⟨hpush, hpush'⟩ := h.push_behead known
  have hpaid : r.acceptPayload seg = r.acceptPayload seg.behead := by
    rw [acceptPayload_of_payload (kept.receiving syn) h.nonempty,
      acceptPayload_of_payload (kept.receiving syn) hne, hpush, hpush']
  have hisn : (r.acceptPayload seg).isn = r.isn := by rw [acceptPayload_frame]
  have hack : seg.header.fin = true →
      (r.acceptPayload seg).ackNo64 = r.ackNo64 ∨ (r.acceptPayload seg).ackNo64 % 2 ^ 32 ≠ 2 ^ 31 := by
    intro hfin
    rw [acceptPayload_of_payload (kept.receiving syn) h.nonempty, hpush, kept.rested.noted,
      StreamReassembler.endOutput_frame]
    show add r.ackNo64 ((r.streamOut.write r.reassembler.assemBuf).1.totalBytesWritten -
        r.streamOut.totalBytesWritten) = _ ∨
      add r.ackNo64 ((r.streamOut.write r.reassembler.assemBuf).1.totalBytesWritten -
        r.streamOut.totalBytesWritten) % 2 ^ 32 ≠ _
    rw [ByteStream.write_totalBytesWritten, Nat.add_sub_cancel_left]
    cases hend : r.streamOut.isEnd with
    | true =>
      refine .inl ?_
      rw [ByteStream.write_of_end _ hend, add_eq kept.ack64, Nat.add_zero]
    | false =>
      have hne := (elsewhere hfin).resolve_left (Bool.eq_false_iff.mp hend)
      refine .inr ?_
      rw [ByteStream.write_snd _ hend]
      unfold ByteStream.remainingCapacity at hne
      unfold add
      omega
  unfold segmentReceived
  rw [acceptSyn_of_syn seg syn, acceptSyn_of_syn seg.behead syn, ← hpaid, h.noteFin_behead hisn hack]

/-- A lone FIN behind the SYN is consumed while nothing else is acknowledged, and ends the output. -/
theorem finish_two (h : Unindexed r seg) (one : seg.payload.str.length = 1) (fin : seg.header.fin = true)
    (low : r.ackNo64 ≤ 2) (x : StreamReassembler) :
    (({ r with reassembler := x } : TCPReceiver).noteFin seg.behead).consumeFin.endStream =
      { r with
        reassembler := { x with output := x.output.endInput }, state := .finReceive, ackNo64 := 2,
        lastNo := 2, receivedFin := true } := by
  have hlen : seg.behead.lengthInSequenceSpace = 1 := by
    have hsame := h.length_behead
    rw [show seg.lengthInSequenceSpace = 2 by
      rw [TCPSegment.lengthInSequenceSpace, one, h.noSyn, fin]
      rfl] at hsame
    exact Nat.add_right_cancel hsame
  have hlast : add (unwrap seg.behead.header.seqno r.isn r.ackNo64) seg.behead.lengthInSequenceSpace = 2 := by
    rw [h.unwrap_behead, hlen]
    rfl
  have hnote : ({ r with reassembler := x } : TCPReceiver).noteFin seg.behead =
      { r with reassembler := x, state := .finReceive, lastNo := 2, receivedFin := true } := by
    unfold noteFin
    rw [if_pos (show seg.behead.header.fin = true from fin)]
    dsimp only
    rw [hlast]
  have hconsume : ({ r with reassembler := x, state := .finReceive, lastNo := 2, receivedFin := true } :
      TCPReceiver).consumeFin = { r with
        reassembler := x, state := .finReceive, ackNo64 := 2, lastNo := 2, receivedFin := true } := by
    have hstarted := h.started
    unfold consumeFin
    dsimp only
    rcases (show r.ackNo64 = 1 ∨ r.ackNo64 = 2 by omega) with hack | hack
    · rw [if_pos ⟨rfl, by rw [hack]; rfl⟩]
    · rw [if_neg (fun hc => absurd hc.2 (by rw [hack]; decide)), ← hack]
  rw [hnote, hconsume]
  exact if_pos ⟨rfl, rfl⟩

theorem behead_nil (one : seg.payload.str.length = 1) : seg.behead.payload.str = [] := by
  rw [seg.behead_str, List.drop_eq_nil_iff]
  omega

/-- **One byte alone**: nothing is left of it, and nothing is pushed without it. The end index it may carry
is `0`. -/
theorem segment_one (h : Unindexed r seg) (kept : Kept capacity r) (syn : r.receivedSyn = true)
    (one : seg.payload.str.length = 1) (flushed : r.reassembler.Flushed) :
    let paid : TCPReceiver := { r with
      reassembler := if seg.header.fin then (r.reassembler.endsAt 0).endOutput else r.reassembler }
    r.segmentReceived seg = (paid.noteFin seg.behead).consumeFin.endStream ∧
      r.segmentReceived seg.behead = (r.noteFin seg.behead).consumeFin.endStream := by
  have hlen : (r.cutToWindow seg).length - 1 = 0 := by
    rw [h.cut_behead.2]
    omega
  obtain ⟨hpush, -⟩ := h.push_behead (by omega)
  rw [hlen, kept.rested.noteEnd flushed] at hpush
  have hpaid := acceptPayload_of_payload (kept.receiving syn) h.nonempty
  rw [hpush, advance_of_same kept.ack64 (by rw [StreamReassembler.endOutput_frame]; rfl)] at hpaid
  intro paid
  have hsame : r.acceptPayload seg = paid := by
    rw [hpaid]
    cases hfin : seg.header.fin with
    | false =>
      rw [if_neg Bool.false_ne_true]
      have hquiet : ({ r with reassembler := r.reassembler.endOutput } : TCPReceiver) = r := by
        rw [kept.rested.endOutput_eq]
      exact hquiet.trans (by simp only [paid, hfin, Bool.false_eq_true, if_false])
    | true =>
      rw [if_pos rfl]
      simp only [paid, hfin, if_true]
      rfl
  have hnote : paid.noteFin seg = paid.noteFin seg.behead := h.noteFin_behead rfl fun _ => .inl rfl
  unfold segmentReceived
  rw [acceptSyn_of_syn seg syn, acceptSyn_of_syn seg.behead syn, acceptPayload_of_nil r (behead_nil one),
    hsame, hnote]
  exact ⟨rfl, rfl⟩

/-- A FIN with that byte puts the end index `0` in the place of the one noted before, which has been
passed. -/
theorem endAlike_one (h : Unindexed r seg) (kept : Kept capacity r) (syn : r.receivedSyn = true)
    (one : seg.payload.str.length = 1) (flushed : r.reassembler.Flushed) (fin : seg.header.fin = true) :
    EndAlike r.reassembler.eofIndex (r.segmentReceived seg) (r.segmentReceived seg.behead) := by
  obtain ⟨hseg, hbehead⟩ := h.segment_one kept syn one flushed
  rw [hseg, hbehead, if_pos fin]
  by_cases hlow : r.ackNo64 ≤ 2
  · have hother : (r.noteFin seg.behead).consumeFin.endStream = _ := h.finish_two one fin hlow r.reassembler
    rw [h.finish_two one fin hlow, hother, StreamReassembler.endOutput_frame]
    exact .inr ⟨0, rfl, .inl rfl, rfl⟩
  · have hpassed : r.reassembler.Passed 0 := by
      cases hend : r.streamOut.isEnd with
      | true => exact .inl hend
      | false =>
        have hbehind := kept.behind hend
        have hcounts : r.reassembler.expectIdx =
          r.streamOut.totalBytesWritten + r.reassembler.assemBuf.length := kept.counts
        exact .inr (by omega)
    rw [hpassed.endOutput_eq]
    exact EndAlike.finish (.inr ⟨0, rfl, hpassed, rfl⟩) seg.behead

theorem same_one (h : Unindexed r seg) (kept : Kept capacity r) (syn : r.receivedSyn = true)
    (one : seg.payload.str.length = 1) (flushed : r.reassembler.Flushed) {events : List Event}
    (unmet : seg.header.fin = true →
      Unmet r.reassembler.eofIndex (r.segmentReceived seg.behead) events) :
    Same (events.foldl handle (r.segmentReceived seg))
      (events.foldl handle (r.segmentReceived seg.behead)) := by
  cases hfin : seg.header.fin with
  | true => exact (h.endAlike_one kept syn one flushed hfin).same (unmet hfin)
  | false =>
    obtain ⟨hseg, hbehead⟩ := h.segment_one kept syn one flushed
    rw [hseg, hbehead, hfin, if_neg Bool.false_ne_true]
    exact ⟨rfl, rfl⟩

/-- Without the byte nothing is assembled, and the FIN of a first byte ends the output. -/
theorem passed_behead (h : Unindexed r seg) (syn : r.receivedSyn = true) (one : seg.payload.str.length = 1)
    (fin : seg.header.fin = true) {n : Nat} (passed : r.ackNo64 ≤ 2 ∨ r.reassembler.Passed n) :
    (r.segmentReceived seg.behead).reassembler.Passed n := by
  rcases passed with hlow | hend | hlt
  · refine .inl ?_
    unfold segmentReceived
    rw [acceptSyn_of_syn seg.behead syn, acceptPayload_of_nil r (behead_nil one)]
    have hfinish : (r.noteFin seg.behead).consumeFin.endStream = _ :=
      h.finish_two one fin hlow r.reassembler
    rw [hfinish]
    rfl
  · exact .inl (handle_ended hend (.segment seg.behead)).1
  · exact .inr (Nat.lt_of_lt_of_le hlt (r.handle_expectIdx_le (.segment seg.behead)))

/-- **A single byte makes a push**, and the push writes what waits. -/
theorem written_ne_of_waiting (h : Unindexed r seg) (kept : Kept capacity r) (syn : r.receivedSyn = true)
    (one : seg.payload.str.length = 1) (waiting : ¬r.reassembler.Flushed) :
    (r.segmentReceived seg).streamOut.bytesWritten ≠
      (r.segmentReceived seg.behead).streamOut.bytesWritten := by
  have hwrites := StreamReassembler.push_writes waiting (r.cutToWindow seg) (r.pushIndex seg) seg.header.fin
  rw [segmentReceived_written syn, segmentReceived_written syn, acceptPayload_of_nil r (behead_nil one),
    acceptPayload_of_payload (kept.receiving syn) h.nonempty, advance_reassembler]
  exact Nat.ne_of_gt hwrites

/-- **While the output is open and everything stored lies ahead, bytes behind the first that are new make a
difference**: pushed at `2 ^ 64 - 1` they are not assembled, and without the first byte they are written. -/
theorem written_ne_of_new (h : Unindexed r seg) (kept : Kept capacity r) (syn : r.receivedSyn = true)
    (open_ : r.streamOut.inputEnded = false) (ahead : r.reassembler.Ahead)
    (new : r.reassembler.expectIdx + 1 < min seg.payload.str.length r.rightEdge) :
    (r.segmentReceived seg).streamOut.bytesWritten ≠
      (r.segmentReceived seg.behead).streamOut.bytesWritten := by
  obtain ⟨hcut, hlen⟩ := h.cut_behead
  obtain ⟨hindex, hindex'⟩ := h.pushIndex_behead
  have hshort := h.short
  have hdrop : ((r.cutToWindow seg).drop 1).length = min seg.payload.str.length r.rightEdge - 1 := by
    rw [List.length_drop, hlen]
  have hne : seg.behead.payload.str ≠ [] := by
    rw [seg.behead_str, Ne, List.drop_eq_nil_iff]
    omega
  -- the window has room for more than the bytes that wait
  have hbehind := kept.behind open_
  have hcounts : r.reassembler.expectIdx = r.streamOut.totalBytesWritten + r.reassembler.assemBuf.length :=
    kept.counts
  have hwindow : r.windowSize + r.reassembler.output.buf.length = r.capacity := kept.sized.windowSize_eq
  have hsized : r.reassembler.output.cap = r.capacity := kept.sized
  have hcap : r.capacity = r.reassembler.capacity := kept.whole.trans kept.cap.symm
  have hedge : r.rightEdge = r.ackNo64 + r.windowSize := rfl
  have hfree : r.reassembler.output.buf.length + r.reassembler.assemBuf.length <
      r.reassembler.output.cap := by omega
  have hstored := ahead.push_ahead (show r.reassembler.expectIdx < 2 ^ 64 - 1 by omega) (r.cutToWindow seg)
    seg.header.fin
  obtain ⟨moved, hmoved, hassembled⟩ := ahead.push_reached (Nat.zero_le _)
    (show 0 + ((r.cutToWindow seg).drop 1).length < 2 ^ 64 by clear hstored; omega)
    (by clear hstored; omega) (by clear hstored; omega) seg.behead.header.fin
  rw [segmentReceived_written syn, segmentReceived_written syn,
    acceptPayload_of_payload (kept.receiving syn) h.nonempty,
    acceptPayload_of_payload (kept.receiving syn) hne, advance_reassembler, advance_reassembler, hindex,
    hindex', hcut, hstored, hassembled]
  exact Nat.ne_of_lt (StreamReassembler.write_append_lt open_ hfree (List.length_pos_iff.mpr hmoved))

end Unindexed

/-- When a byte in the place of the SYN makes no difference: what follows it, up to the right edge, is
assembled already. If nothing follows it, no byte waits that the output would take. If more follows and there
is a FIN, what waits to be written does not take the acknowledgment number to half a period behind the SYN. -/
def Ignorable (r : TCPReceiver) (seg : TCPSegment) : Prop :=
  min seg.payload.str.length r.rightEdge ≤ r.reassembler.expectIdx + 1 ∧
    (seg.payload.str.length = 1 → r.reassembler.Flushed) ∧
    (1 < seg.payload.str.length → seg.header.fin = true → r.streamOut.isEnd = true ∨
      (r.ackNo64 + min r.reassembler.assemBuf.length r.streamOut.remainingCapacity) % 2 ^ 32 ≠ 2 ^ 31)

instance (r : TCPReceiver) (seg : TCPSegment) : Decidable (r.Ignorable seg) :=
  inferInstanceAs (Decidable (_ ∧ (_ → _) ∧ (_ → _ → _)))

/-- **When a byte in the place of the SYN is ignored.** An ignorable segment does what the segment without
the byte does, now and later. A FIN with nothing but that byte takes the place of an end index noted before
it, so that one must not be met later; it is not if the output has ended, or this FIN ends it, or the index
has been passed. Conversely, where the segment without the byte does the same: nothing waits if the byte is
alone; and what follows it is assembled already, if the output is open and everything stored lies ahead. -/
theorem unindexed_byte_ignored (run : Runs.Reach handle (fun _ _ => True) (new capacity) r)
    (syn : r.receivedSyn = true) (started : 0 < r.ackNo64) (few : r.rightEdge < 2 ^ 63)
    (noSyn : seg.header.syn = false) (zero : unwrap seg.header.seqno r.isn r.ackNo64 = 0)
    (nonempty : seg.payload.str ≠ []) (short : seg.payload.str.length < 2 ^ 63) :
    (r.Ignorable seg →
      (∀ events, (seg.payload.str.length = 1 → seg.header.fin = true →
          Unmet r.reassembler.eofIndex (r.segmentReceived seg.behead) events) →
        Same (events.foldl handle (r.segmentReceived seg))
          (events.foldl handle (r.segmentReceived seg.behead))) ∧
      ((seg.payload.str.length = 1 → seg.header.fin = true →
          r.ackNo64 ≤ 2 ∨ r.reassembler.Passed r.reassembler.eofIndex) →
        SameLater (r.segmentReceived seg) (r.segmentReceived seg.behead))) ∧
    (Same (r.segmentReceived seg) (r.segmentReceived seg.behead) →
      (seg.payload.str.length = 1 → r.reassembler.Flushed) ∧
        (r.streamOut.inputEnded = false → r.reassembler.Ahead →
          min seg.payload.str.length r.rightEdge ≤ r.reassembler.expectIdx + 1)) := by
  have h : Unindexed r seg := ⟨noSyn, zero, nonempty, short, started, few⟩
  have hkept := kept_of_run run
  have hpos := List.length_pos_iff.mpr nonempty
  refine ⟨fun ⟨hknown, hone, hmany⟩ => ?_, fun hsame => ?_⟩
  · have hlater (events : List Event) (unmet : seg.payload.str.length = 1 → seg.header.fin = true →
        Unmet r.reassembler.eofIndex (r.segmentReceived seg.behead) events) :
        Same (events.foldl handle (r.segmentReceived seg))
          (events.foldl handle (r.segmentReceived seg.behead)) := by
      by_cases hlen : seg.payload.str.length = 1
      · exact h.same_one hkept syn hlen (hone hlen) (unmet hlen)
      · have hmore : 1 < seg.payload.str.length := by omega
        rw [h.segment_many hkept syn hknown hmore (hmany hmore)]
        exact ⟨rfl, rfl⟩
    exact ⟨hlater, fun hpassed events => hlater events fun hlen hfin =>
      unmet_of_passed (h.passed_behead syn hlen hfin (hpassed hlen hfin)) events⟩
  · have hwritten := hsame.2
    exact ⟨fun hlen => by_contra fun hwaits => h.written_ne_of_waiting hkept syn hlen hwaits hwritten,
      fun hopen hahead => Nat.le_of_not_lt fun hnew =>
        h.written_ne_of_new hkept syn hopen hahead hnew hwritten⟩

/-- Three bytes of the stream have come; then a FIN with a byte in the place of the SYN, and one more byte. -/
theorem unindexed_byte_ignored_fin :
    let first : TCPSegment :=
      { header := { seqno := ⟨7⟩, syn := true }, payload := Buffer.ofString [1, 2, 3] }
    let r := [Event.segment first].foldl handle (new 4)
    let seg : TCPSegment := { header := { seqno := ⟨7⟩, fin := true }, payload := Buffer.ofString [9] }
    let events := [Event.segment { header := { seqno := ⟨11⟩ }, payload := Buffer.ofString [4] }]
    Same (events.foldl handle (r.segmentReceived seg))
      (events.foldl handle (r.segmentReceived seg.behead)) := by
  intro first r seg events
  have run : Runs.Reach handle (fun _ _ => True) (new 4) r := Runs.reach_foldl .start (by decide +kernel)
  obtain ⟨hsame, -⟩ := unindexed_byte_ignored run (by decide +kernel) (by decide +kernel) (by decide +kernel)
    (show seg.header.syn = false from rfl) (by decide +kernel) (by decide) (by decide +kernel)
  exact (hsame (by decide +kernel)).1 events fun _ _ => by decide +kernel

/-- **A byte in the place of the SYN spoils the bytes behind it.** Its segment is stored at the last 64-bit
index, and the two bytes of the stream in it are lost. -/
theorem unindexed_byte_stored :
    let first : TCPSegment := { header := { seqno := ⟨7⟩, syn := true } }
    let r := [Event.segment first].foldl handle (new 4)
    let seg : TCPSegment := { header := { seqno := ⟨7⟩ }, payload := Buffer.ofString [9, 1, 2] }
    unwrap seg.header.seqno r.isn r.ackNo64 = 0 ∧
      (r.segmentReceived seg).ackno = some ⟨8⟩ ∧ (r.segmentReceived seg.behead).ackno = some ⟨10⟩ ∧
      (r.segmentReceived seg).unassembledBytes = 3 ∧
      (r.segmentReceived seg.behead).unassembledBytes = 0 ∧
      (r.segmentReceived seg).streamOut.bytesWritten = 0 ∧
      (r.segmentReceived seg.behead).streamOut.bytesWritten = 2 := by
  decide +kernel

end TCPReceiver

end Sponge
