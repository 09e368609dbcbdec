import Sponge.Stream.Reassembler
import Sponge.Tcp.Segment

/-!
# The TCP receiver

`libsponge/tcp_receiver.cc`: the receiver turns segments into pushes on its reassembler, keeps the
absolute acknowledgment number beside the reassembler's own count, and decides when the FIN is
consumed. `segmentReceived` runs five stages, in the order of the source.

Sequence arithmetic is 64-bit arithmetic, as in the source. The answer to a RST segment is a call of
the stream's `error` getter, which changes nothing. The field `_window_size` is never read and is
left out.
-/

namespace Sponge

open Word64 (add sub)

/-- The receiver's `_state`. -/
inductive ReceiverState
  | listen
  | synReceive
  | finReceive
deriving DecidableEq, Repr

/-- The receiver's state. -/
structure TCPReceiver where
  reassembler : StreamReassembler
  capacity : Nat
  state : ReceiverState
  isn : WrappingInt32
  ackNo64 : Nat
  lastNo : Nat
  receivedSyn : Bool
  receivedFin : Bool
deriving DecidableEq

namespace TCPReceiver

/-- A receiver that stores up to `capacity` bytes. -/
def new (capacity : Nat) : TCPReceiver where
  reassembler := StreamReassembler.new capacity
  capacity := capacity
  state := .listen
  isn := ⟨0⟩
  ackNo64 := 0
  lastNo := 0
  receivedSyn := false
  receivedFin := false

variable (r : TCPReceiver)

def streamOut : ByteStream := r.reassembler.output

/-- `window_size`: the capacity minus what the reader has not taken yet. -/
def windowSize : Nat := r.capacity - r.streamOut.bytesNotRead

/-- `ackno`: empty before the SYN. -/
def ackno : Option WrappingInt32 :=
  if r.receivedSyn then some (wrap r.ackNo64 r.isn) else none

/-- The first SYN fixes the initial sequence number. -/
def acceptSyn (seg : TCPSegment) : TCPReceiver :=
  if r.receivedSyn = false ∧ seg.header.syn = true then
    { r with
      isn := seg.header.seqno
      ackNo64 := add (unwrap seg.header.seqno seg.header.seqno 0) 1
      state := .synReceive
      receivedSyn := true }
  else r

/-- The payload, cut at the right edge of the window. The cut is computed from the length in
sequence space, in unsigned arithmetic. -/
def cutToWindow (seg : TCPSegment) : Bytes :=
  let absSeq := unwrap seg.header.seqno r.isn r.ackNo64
  let rightBound := add r.ackNo64 r.windowSize
  let stop := add absSeq seg.lengthInSequenceSpace
  if rightBound < stop then
    seg.payload.copy.take (sub seg.lengthInSequenceSpace (sub stop rightBound))
  else seg.payload.copy

/-- The stream index the payload is pushed at. -/
def pushIndex (seg : TCPSegment) : Nat :=
  if seg.header.syn then 0 else sub (unwrap seg.header.seqno r.isn r.ackNo64) 1

/-- Take over a pushed reassembler, and move the acknowledgment number by the bytes written. -/
def advance (pushed : StreamReassembler) : TCPReceiver :=
  { r with
    reassembler := pushed
    ackNo64 := add r.ackNo64 (pushed.output.bytesWritten - r.streamOut.bytesWritten) }

/-- Push a nonempty payload once the SYN is in. -/
def acceptPayload (seg : TCPSegment) : TCPReceiver :=
  if r.state = .synReceive ∨ r.state = .finReceive then
    if 0 < seg.payload.copy.length then
      r.advance (r.reassembler.pushSubstring (r.cutToWindow seg) (r.pushIndex seg) seg.header.fin)
    else r
  else r

/-- A FIN fixes the number after it. -/
def noteFin (seg : TCPSegment) : TCPReceiver :=
  if seg.header.fin then
    { r with
      state := .finReceive
      lastNo := add (unwrap seg.header.seqno r.isn r.ackNo64) seg.lengthInSequenceSpace
      receivedFin := true }
  else r

/-- Acknowledge the FIN once everything before it is. -/
def consumeFin : TCPReceiver :=
  if r.receivedFin ∧ add r.ackNo64 1 = r.lastNo then { r with ackNo64 := r.lastNo } else r

/-- End the output once the FIN is acknowledged. -/
def endStream : TCPReceiver :=
  if r.ackNo64 = r.lastNo ∧ r.receivedFin then
    { r with reassembler := { r.reassembler with output := r.reassembler.output.endInput } }
  else r

/-- `segment_received`. -/
def segmentReceived (seg : TCPSegment) : TCPReceiver :=
  ((((r.acceptSyn seg).acceptPayload seg).noteFin seg).consumeFin).endStream

def unassembledBytes : Nat := r.reassembler.unassembledBytes

/-- The reader of the output pops bytes. -/
def popOutput (len : Nat) : TCPReceiver := { r with reassembler := r.reassembler.popOutput len }

end TCPReceiver

end Sponge
