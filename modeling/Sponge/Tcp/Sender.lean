import Sponge.Tcp.Segment

/-!
# The TCP sender

`libsponge/tcp_sender.cc`: the sender cuts its stream into segments, keeps those that are not fully
acknowledged, and sends the oldest again when its timer expires. The queue `segmentsOut` is drained
by the owner of the sender; here it is never drained, so it is the history of everything sent.

The counters `nextSeqno`, `ackedNext` and `bytesInFlight` grow only by sequence numbers really sent
and are naturals; the timer's sum and shift wrap in 64 bits. A shift by 64 or more is undefined in
the source; here it shifts everything out.

The loop of `fill_window` is `fillLoop`, with a fuel that never runs out: `fillWindow_eq` is the
loop's own equation. Each turn is `fillTurn`, and `fillTurn_cases` says all it can do.
-/

namespace Sponge

open Word64 (add)

/-- The retransmission timer. -/
structure Timer where
  rto : Nat
  initialRto : Nat
  timePass : Nat
  failCount : UInt16
  running : Bool
  retransmissionTimeoutShift : UInt32
deriving DecidableEq

namespace Timer

def new (initRto : Nat) : Timer := ⟨initRto, initRto, 0, 0, false, 0⟩

variable (t : Timer)

/-- `pass`: let time go by, if the timer runs. -/
def pass (ms : Nat) : Timer := if t.running then { t with timePass := add t.timePass ms } else t

/-- `reset`: back to the initial timeout, with nothing elapsed and no failure counted. -/
def reset : Timer :=
  { t with timePass := 0, failCount := 0, retransmissionTimeoutShift := 0, rto := t.initialRto }

def stop : Timer := { t.reset with running := false }

def start : Timer := { t with running := true }

def isExpire : Bool := t.rto ≤ t.timePass

/-- `double_rto`: count a failure and back off. -/
def doubleRto : Timer :=
  { t with
    failCount := t.failCount + 1
    timePass := 0
    retransmissionTimeoutShift := t.retransmissionTimeoutShift + 1
    rto := (t.initialRto <<< (t.retransmissionTimeoutShift + 1).toNat) % 2 ^ 64 }

/-- `reset_rto`: back to the initial timeout, keeping the failures counted. -/
def resetRto : Timer :=
  { t with retransmissionTimeoutShift := 0, rto := t.initialRto, timePass := 0 }

end Timer

/-- The largest payload of one segment. -/
def MAX_PAYLOAD_SIZE : Nat := 1000

/-- The sender's state. -/
structure TCPSender where
  isn : WrappingInt32
  segmentsOut : List TCPSegment
  stream : ByteStream
  nextSeqno : Nat
  ackedNext : Nat
  timer : Timer
  outstandingBuffer : List TCPSegment
  peerWindowSize : Nat
  receivedWindowSize : Nat
  synSent : Bool
  finSent : Bool
  bytesInFlight : Nat
deriving DecidableEq

/-- `get_data`: peek at most `limit` bytes and pop what was seen. -/
def getData (stream : ByteStream) (limit : Nat) : ByteStream × Bytes :=
  let availableStr := stream.peekOutput limit
  let availableLength := min availableStr.length limit
  (stream.popOutput availableLength, availableStr.take availableLength)

namespace TCPSender

/-- A sender with a stream of the given capacity and a fixed initial sequence number. -/
def new (capacity : Nat) (retxTimeout : UInt16) (isn : WrappingInt32) : TCPSender where
  isn := isn
  segmentsOut := []
  stream := ByteStream.new capacity
  nextSeqno := 0
  ackedNext := 0
  timer := Timer.new retxTimeout.toNat
  outstandingBuffer := []
  peerWindowSize := 1
  receivedWindowSize := 1
  synSent := false
  finSent := false
  bytesInFlight := 0

variable (s : TCPSender)

/-- Queue a segment and account for it. -/
def queue (seg : TCPSegment) : TCPSender :=
  { s with
    segmentsOut := s.segmentsOut ++ [seg]
    nextSeqno := s.nextSeqno + seg.lengthInSequenceSpace
    bytesInFlight := s.bytesInFlight + seg.lengthInSequenceSpace
    peerWindowSize := s.peerWindowSize - seg.lengthInSequenceSpace
    timer := if s.timer.running then s.timer else s.timer.start
    outstandingBuffer := s.outstandingBuffer ++ [seg] }

/-- The loop condition of `fill_window`: whether to go on, the data taken, and the sender after it.
Data is taken only when neither a FIN nor the SYN is due. -/
def fillCondition : Bool × Bytes × TCPSender :=
  if (!s.finSent && s.stream.eof) || !s.synSent then (true, [], s)
  else
    let taken := getData s.stream (min MAX_PAYLOAD_SIZE s.peerWindowSize)
    (taken.2.length != 0, taken.2, { s with stream := taken.1 })

/-- The loop body of `fill_window` for the data taken: build the segment, take the FIN off again when
the segment does not fit the window, and queue it. Answers whether the loop goes on. -/
def fillBody (data : Bytes) : TCPSender × Bool :=
  let header : TCPHeader :=
    { seqno := wrap s.nextSeqno s.isn, syn := !s.synSent, fin := s.stream.eof }
  let marked := { s with synSent := true, finSent := s.finSent || s.stream.eof }
  let seg : TCPSegment := { header, payload := Buffer.ofString data }
  if marked.peerWindowSize < seg.lengthInSequenceSpace then
    let seg : TCPSegment := { header := { header with fin := false }, payload := Buffer.ofString data }
    let unmarked := { marked with finSent := false }
    if seg.lengthInSequenceSpace = 0 then (unmarked, false) else (unmarked.queue seg, false)
  else if seg.lengthInSequenceSpace = 0 then (marked, false)
  else (marked.queue seg, true)

/-- One turn of the loop of `fill_window`: its condition, and its body if the condition holds. -/
def fillTurn : TCPSender × Bool :=
  let (goOn, data, taken) := s.fillCondition
  if goOn then taken.fillBody data else (taken, false)

/-- The loop of `fill_window`, for at most `fuel` turns. -/
def fillLoop : Nat → TCPSender → TCPSender
  | 0, s => s
  | fuel + 1, s => if s.fillTurn.2 then fillLoop fuel s.fillTurn.1 else s.fillTurn.1

/-- A bound on the turns still to come: each one that goes on sends the SYN, the FIN or a byte. -/
def fillBound : Nat :=
  s.stream.buf.length + (if s.synSent then 0 else 1) + (if s.finSent then 0 else 1)

/-- `fill_window`. -/
def fillWindow : TCPSender := fillLoop (s.fillBound + 1) s

/-- The loop of `ack_received` over the outstanding segments, from the oldest on. Answers what is
left of them, the two counters, and whether the acknowledgment was news. -/
def ackLoop (isn : WrappingInt32) (absAckno : Nat) :
    List TCPSegment → Nat → Nat → Bool → List TCPSegment × Nat × Nat × Bool
  | [], ackedNext, bytesInFlight, newData => ([], ackedNext, bytesInFlight, newData)
  | head :: rest, ackedNext, bytesInFlight, newData =>
    let headSeqno := unwrap head.header.seqno isn ackedNext
    if headSeqno < absAckno then
      if head.lengthInSequenceSpace ≤ absAckno - headSeqno then
        ackLoop isn absAckno rest (ackedNext + head.lengthInSequenceSpace)
          (bytesInFlight - head.lengthInSequenceSpace) true
      else (head :: rest, ackedNext, bytesInFlight, true)
    else (head :: rest, ackedNext, bytesInFlight, newData)

/-- `ack_received` up to its last call: drop what is acknowledged, recompute the remaining window,
and stop or reset the timer. -/
def acceptAck (absAckno : Nat) (windowSize : UInt16) : TCPSender :=
  let windowSizeCopy := if windowSize = 0 then 1 else windowSize.toNat
  let (outstandingBuffer, ackedNext, bytesInFlight, newData) :=
    ackLoop s.isn absAckno s.outstandingBuffer s.ackedNext s.bytesInFlight false
  let timer := if outstandingBuffer.isEmpty then s.timer.stop else s.timer
  { s with
    outstandingBuffer, ackedNext, bytesInFlight
    receivedWindowSize := windowSize.toNat
    peerWindowSize := windowSizeCopy - bytesInFlight
    timer := if newData then timer.reset else timer }

/-- `ack_received`: an acknowledgment of something never sent is ignored, except that its window is
noted as the newest one. -/
def ackReceived (ackno : WrappingInt32) (windowSize : UInt16) : TCPSender :=
  let absAckno := unwrap ackno s.isn s.ackedNext
  if s.nextSeqno < absAckno then { s with receivedWindowSize := windowSize.toNat }
  else (s.acceptAck absAckno windowSize).fillWindow

/-- `tick`: let time pass; when the timer expires, back off and send the oldest segment again. -/
def tick (msSinceLastTick : Nat) : TCPSender :=
  let timer := s.timer.pass msSinceLastTick
  if timer.isExpire then
    { s with
      timer := if s.receivedWindowSize ≠ 0 then timer.doubleRto else timer.resetRto
      segmentsOut := s.segmentsOut ++ s.outstandingBuffer.head?.toList }
  else { s with timer }

/-- The segment of `send_empty_segment`. -/
def emptySegment : TCPSegment := { header := { seqno := wrap s.nextSeqno s.isn } }

/-- `send_empty_segment`. -/
def sendEmptySegment : TCPSender := { s with segmentsOut := s.segmentsOut ++ [s.emptySegment] }

end TCPSender

end Sponge
