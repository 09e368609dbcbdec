import Sponge.Tcp.Receiver
import Sponge.Tcp.Sender

/-!
# The TCP connection

`libsponge/tcp_connection.cc`: a receiver and a sender behind one object, with flags of its own that
decide when the connection is over. `check_send_fin` looks at every segment that leaves and
`check_rcv_fin` at every segment that arrives, before the receiver and the sender see it.

The sender's queue is drained into `segmentsOut` at the end of every call. The owner drains
`segmentsOut`; here nothing does, so it is the history of everything sent. `_newest_seg_time` and the
two FIN numbers are 64-bit words. `_fin_acked` is never read and is left out. The destructor's reset is
`destroy`.
-/

namespace Sponge

open Word64 (add)

namespace TCPReceiver

variable (r : TCPReceiver)

/-- `stream_out().end_input()`. -/
def endInput : TCPReceiver :=
  { r with reassembler := { r.reassembler with output := r.streamOut.endInput } }

/-- `stream_out().set_error()`. -/
def setError : TCPReceiver :=
  { r with reassembler := { r.reassembler with output := r.streamOut.setError } }

/-- Whether an arriving segment asks for an answer of its own: it occupies sequence numbers, or it is a
keep-alive. -/
def asksForAck (seg : TCPSegment) : Bool :=
  0 < seg.lengthInSequenceSpace ||
    r.ackno.any fun ackno => seg.header.seqno = ⟨ackno.rawValue - 1⟩

end TCPReceiver

namespace TCPSender

variable (s : TCPSender)

/-- `stream_in().write(data)`, without its answer. -/
def write (data : Bytes) : TCPSender := { s with stream := (s.stream.write data).1 }

/-- `stream_in().end_input()`. -/
def endInput : TCPSender := { s with stream := s.stream.endInput }

/-- `stream_in().set_error()`. -/
def setError : TCPSender := { s with stream := s.stream.setError }

/-- What an arriving segment makes the sender do: take its acknowledgment, or answer a SYN. -/
def answer (seg : TCPSegment) : TCPSender :=
  if seg.header.ack then s.ackReceived seg.header.ackno seg.header.win
  else if seg.header.syn then s.fillWindow
  else s

/-- The empty segment, when there is a connection, nothing else to send, and somebody asks. -/
def acknowledge (asked : Bool) : TCPSender :=
  if 0 < s.nextSeqno ∧ s.segmentsOut = [] ∧ asked then s.sendEmptySegment else s

/-- The sender with its queue drained. -/
def drained : TCPSender := { s with segmentsOut := [] }

end TCPSender

/-- `TCPConfig`. The initial sequence number is the fixed one, or the one drawn at random. -/
structure TCPConfig where
  rtTimeout : UInt16 := 1000
  recvCapacity : Nat := 64000
  sendCapacity : Nat := 64000
  isn : WrappingInt32 := ⟨0⟩

/-- `MAX_RETX_ATTEMPTS`: the retransmissions before the connection gives up. -/
def MAX_RETX_ATTEMPTS : Nat := 8

/-- The connection's state. -/
structure TCPConnection where
  cfg : TCPConfig
  receiver : TCPReceiver
  sender : TCPSender
  segmentsOut : List TCPSegment
  lingerAfterStreamsFinish : Bool
  lingering : Bool
  newestSegTime : Nat
  firstSendFin : Bool
  firstReceiveFin : Bool
  selfFinSeqno : Nat
  selfFinAcked : Bool
  peerFinSeqno : Nat
  peerFinAcking : Bool
  rst : Bool

namespace TCPConnection

/-- A connection from a configuration. -/
def new (cfg : TCPConfig) : TCPConnection where
  cfg := cfg
  receiver := TCPReceiver.new cfg.recvCapacity
  sender := TCPSender.new cfg.sendCapacity cfg.rtTimeout cfg.isn
  segmentsOut := []
  lingerAfterStreamsFinish := true
  lingering := false
  newestSegTime := 0
  firstSendFin := false
  firstReceiveFin := false
  selfFinSeqno := 0
  selfFinAcked := false
  peerFinSeqno := 0
  peerFinAcking := false
  rst := false

variable (c : TCPConnection)

/-- `active`: not reset, and not closed on both sides without lingering. -/
def active : Bool := !(c.selfFinAcked && c.peerFinAcking && !c.lingering) && !c.rst

def bytesInFlight : Nat := c.sender.bytesInFlight

/-- `inbound_stream`. -/
def inboundStream : ByteStream := c.receiver.streamOut

def unwrapInConnectionSender (number : WrappingInt32) : Nat :=
  unwrap number c.sender.isn c.sender.nextSeqno

def unwrapInConnectionReceiver (number : WrappingInt32) : Nat :=
  unwrap number c.receiver.isn c.receiver.ackNo64

/-- `_check_linger`: once both FINs are acknowledged, linger or end both streams. -/
def checkLinger : TCPConnection :=
  if c.selfFinAcked ∧ c.peerFinAcking then
    if c.lingerAfterStreamsFinish then { c with lingering := true }
    else { c with sender := c.sender.endInput, receiver := c.receiver.endInput }
  else c

/-- The first half of `check_send_fin`: a FIN leaves. -/
def noteSelfFin (seg : TCPSegment) : TCPConnection :=
  if seg.header.fin then
    { c with
      firstSendFin := c.firstSendFin || !c.firstReceiveFin
      selfFinSeqno := add (c.unwrapInConnectionSender seg.header.seqno) seg.lengthInSequenceSpace }
  else c

/-- The second half: the peer's FIN is being acknowledged. -/
def noteFinAcking (seg : TCPSegment) : TCPConnection :=
  if 0 < c.peerFinSeqno ∧ seg.header.ack then
    if c.peerFinSeqno ≤ c.unwrapInConnectionReceiver seg.header.ackno then
      { c with peerFinAcking := true }.checkLinger
    else c
  else c

def checkSendFin (seg : TCPSegment) : TCPConnection := (c.noteSelfFin seg).noteFinAcking seg

/-- The first half of `check_rcv_fin`: a FIN arrives. -/
def notePeerFin (seg : TCPSegment) : TCPConnection :=
  if seg.header.fin then
    { c with
      firstReceiveFin := c.firstReceiveFin || !c.firstSendFin
      lingerAfterStreamsFinish := c.lingerAfterStreamsFinish && c.firstSendFin
      peerFinSeqno := add (c.unwrapInConnectionReceiver seg.header.seqno) seg.lengthInSequenceSpace }
  else c

/-- The second half: the own FIN is acknowledged. -/
def noteFinAcked (seg : TCPSegment) : TCPConnection :=
  if 0 < c.selfFinSeqno ∧ seg.header.ack then
    if c.selfFinSeqno ≤ c.unwrapInConnectionSender seg.header.ackno then
      { c with selfFinAcked := true }.checkLinger
    else c
  else c

def checkRcvFin (seg : TCPSegment) : TCPConnection := (c.notePeerFin seg).noteFinAcked seg

/-- `fill_seg_fields`: the window in 16 bits, and the acknowledgment number once there is one. -/
def fillSegFields (seg : TCPSegment) : TCPSegment :=
  let header := { seg.header with win := c.receiver.windowSize.toUInt16 }
  match c.receiver.ackno with
  | some ackno => { seg with header := { header with ack := true, ackno } }
  | none => { seg with header }

/-- One turn of the loop of `send_segs`. -/
def sendSeg (seg : TCPSegment) : TCPConnection :=
  let seg := c.fillSegFields seg
  let checked := c.checkSendFin seg
  { checked with segmentsOut := checked.segmentsOut ++ [seg] }

/-- `send_segs`. No turn looks at the queue, so it is drained behind the loop. -/
def sendSegs : TCPConnection :=
  let sent := c.sender.segmentsOut.foldl sendSeg c
  { sent with sender := sent.sender.drained }

/-- The segment of an active reset. -/
def rstSegment : TCPSegment := { header := { rst := true } }

/-- `_reset`. -/
def reset (isActive : Bool) : TCPConnection :=
  { c with
    sender := c.sender.setError
    receiver := c.receiver.setError
    lingerAfterStreamsFinish := false
    rst := true
    segmentsOut := c.segmentsOut ++ if isActive then [rstSegment] else [] }

/-- `segment_received` before `send_segs`, for a segment without RST. -/
def handle (seg : TCPSegment) : TCPConnection :=
  let checked := c.checkRcvFin seg
  let receiver := checked.receiver.segmentReceived seg
  let sender := (checked.sender.answer seg).acknowledge (receiver.asksForAck seg)
  { checked with receiver, sender, newestSegTime := 0 }

/-- `segment_received`. -/
def segmentReceived (seg : TCPSegment) : TCPConnection :=
  if seg.header.rst then c.reset false else (c.handle seg).sendSegs

/-- `connect`. -/
def connect : TCPConnection := { c with sender := c.sender.fillWindow }.sendSegs

/-- `write`: the connection, and the number of bytes accepted. -/
def write (data : Bytes) : TCPConnection × Nat :=
  if data.length = 0 then (c, 0)
  else
    ({ c with sender := (c.sender.write data).fillWindow }.sendSegs, (c.sender.stream.write data).2)

/-- `end_input_stream`. -/
def endInputStream : TCPConnection :=
  { c with sender := c.sender.endInput.fillWindow }.sendSegs

/-- The lingering branch of `tick`: the time is up. -/
def checkExpiry : TCPConnection :=
  if 10 * c.cfg.rtTimeout.toNat ≤ c.newestSegTime then
    { c with receiver := c.receiver.endInput, lingering := false }
  else c

/-- The time since the last segment goes on. -/
def pass (msSinceLastTick : Nat) : TCPConnection :=
  { c with newestSegTime := add c.newestSegTime msSinceLastTick }

/-- `tick` behind that: give up, let the sender's timer run, or linger on. -/
def checkTimers (msSinceLastTick : Nat) : TCPConnection :=
  if MAX_RETX_ATTEMPTS ≤ c.sender.timer.failCount.toNat then c.reset true
  else if !c.lingering then { c with sender := c.sender.tick msSinceLastTick }.sendSegs
  else c.checkExpiry.sendSegs

/-- `tick`. -/
def tick (msSinceLastTick : Nat) : TCPConnection :=
  (c.pass msSinceLastTick).checkTimers msSinceLastTick

/-- The reader of the inbound stream pops bytes. -/
def popInbound (len : Nat) : TCPConnection := { c with receiver := c.receiver.popOutput len }

/-- The destructor: an open connection is reset. -/
def destroy : TCPConnection := if c.active then c.reset true else c

/-- What the owner of a connection does to it. -/
inductive Op
  | connect
  | write (data : Bytes)
  | endInputStream
  | tick (msSinceLastTick : Nat)
  | segmentReceived (seg : TCPSegment)
  | read (len : Nat)

def step (c : TCPConnection) : Op → TCPConnection
  | .connect => c.connect
  | .write data => (c.write data).1
  | .endInputStream => c.endInputStream
  | .tick msSinceLastTick => c.tick msSinceLastTick
  | .segmentReceived seg => c.segmentReceived seg
  | .read len => c.popInbound len

end TCPConnection

end Sponge
