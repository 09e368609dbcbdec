import Sponge.Net.FdAdapter
import Sponge.Tcp.State
import Sponge.Util.EventLoop

/-!
# The TCP socket

`libsponge/tcp_helpers/tcp_sponge_socket.cc`: a thread that runs a connection between the owner's data,
which comes and goes through one end of a pair of stream sockets, and an adapter. Four rules of an event
loop do it, and a tick after each turn.

Here the queue of the connection is really popped, by the rule that hands its segments to the adapter;
`handed` remembers them. The output for debugging is left out with the flag that only it reads. The loops of
`connect` and `listen_and_accept` differ from the thread's only in when they stop; what the clock says is an
argument of a turn, and so is whether the owner has asked to abort.
-/

namespace Sponge

open EventLoop (Rule)

/-- `remaining_outbound_capacity`. -/
def TCPConnection.remainingOutboundCapacity (c : TCPConnection) : Nat := c.sender.stream.remainingCapacity

/-- What the thread works on, once the connection is there. -/
structure TCPSpongeSocket (α : Type) where
  tcp : TCPConnection
  threadData : FileDescriptor := {}
  adapter : α
  outboundShutdown : Bool := false
  inboundShutdown : Bool := false
  handed : List TCPSegment := []

namespace TCPSpongeSocket

/-- The four rules, in the order they are added. -/
inductive RuleName
  | readDatagram
  | readThread
  | writeThread
  | writeDatagram
deriving DecidableEq, Repr

variable {α : Type} [FdAdapter α]

/-- What the kernel answers to the calls one callback may make: the read of a packet, the read of data, the
write of data, a shutdown, and the writes for each packet. -/
structure Answers (α : Type) [FdAdapter α] where
  packet : Answer (FdAdapter.Packet α) := .error 0
  data : Answer Bytes := .ok []
  count : Answer Nat := .ok 0
  closing : Answer Unit := .ok ()
  writes : Nat → Nat → Answer Unit := fun _ _ => .ok ()

def acceptedLess : Failure :=
  .exn (.runtimeError "TCPConnection::write() accepted less than advertised length")

/-- Rule 1: from the adapter into the connection. -/
def readDatagram (answers : Answers α) (s : TCPSpongeSocket α) : Except Failure (TCPSpongeSocket α) := do
  let (adapter, seg) ← FdAdapter.read s.adapter answers.packet (answers.writes 0)
  match seg with
  | some seg => return { s with adapter, tcp := s.tcp.segmentReceived seg }
  | none => return { s with adapter }

/-- The outbound stream ends. -/
def endOutbound (s : TCPSpongeSocket α) : TCPSpongeSocket α :=
  { s with tcp := s.tcp.endInputStream, outboundShutdown := true }

/-- Rule 2: from the owner into the connection. -/
def readThread (answers : Answers α) (s : TCPSpongeSocket α) : Except Failure (TCPSpongeSocket α) := do
  let (threadData, data) ← s.threadData.read s.tcp.remainingOutboundCapacity answers.data
  let (tcp, amountWritten) := s.tcp.write data
  if amountWritten ≠ data.length then throw acceptedLess
  else
    let s := { s with tcp, threadData }
    return if threadData.eof then s.endOutbound else s

/-- Rule 3: from the connection to the owner, as much as is taken. -/
def writeThread (answers : Answers α) (s : TCPSpongeSocket α) : Except Failure (TCPSpongeSocket α) := do
  let amountToWrite := min 65536 s.tcp.inboundStream.bufferSize
  let (threadData, bytesWritten) ←
    s.threadData.writev (s.tcp.inboundStream.peekOutput amountToWrite) answers.count
  let tcp := s.tcp.popInbound bytesWritten
  if tcp.inboundStream.eof || tcp.inboundStream.error then
    return { s with tcp, threadData := ← threadData.shutdown .wr answers.closing, inboundShutdown := true }
  else return { s with tcp, threadData }

/-- The loop of rule 4. -/
def writeSegments : List TCPSegment → α → (Nat → Nat → Answer Unit) → Except Failure α
  | [], adapter, _ => .ok adapter
  | seg :: segs, adapter, writes => do
    let adapter ← FdAdapter.write adapter seg (writes 0)
    writeSegments segs adapter fun i => writes (i + 1)

/-- Rule 4: from the connection to the adapter. -/
def writeDatagram (answers : Answers α) (s : TCPSpongeSocket α) : Except Failure (TCPSpongeSocket α) := do
  let adapter ← writeSegments s.tcp.segmentsOut s.adapter answers.writes
  return { s with
    adapter
    tcp := { s.tcp with segmentsOut := [] }
    handed := s.handed ++ s.tcp.segmentsOut }

/-- The event loop's rules. -/
def rule : RuleName → Rule (TCPSpongeSocket α) (Answers α)
  | .readDatagram =>
    { fd := fun s => FdAdapter.fd s.adapter
      direction := .In
      callback := readDatagram
      interest := fun s => s.tcp.active }
  | .readThread =>
    { fd := threadData
      direction := .In
      callback := readThread
      interest := fun s => s.tcp.active && !s.outboundShutdown && decide (0 < s.tcp.remainingOutboundCapacity)
      cancel := endOutbound }
  | .writeThread =>
    { fd := threadData
      direction := .Out
      callback := writeThread
      interest := fun s => !s.tcp.inboundStream.bufferEmpty ||
        (s.tcp.inboundStream.eof || s.tcp.inboundStream.error) && !s.inboundShutdown }
  | .writeDatagram =>
    { fd := fun s => FdAdapter.fd s.adapter
      direction := .Out
      callback := writeDatagram
      interest := fun s => !s.tcp.segmentsOut.isEmpty }

/-- `_initialize_TCP`: the rules, and the connection they work on. -/
def rules : List RuleName := [.readDatagram, .readThread, .writeThread, .writeDatagram]

def initializeTCP (adapter : α) (cTcp : TCPConfig) : TCPSpongeSocket α := { tcp := .new cTcp, adapter }

/-- What a turn of the loop depends on beside its state: what `poll` answers, whether the owner aborts, the
time since the last tick, and the answers to the writes of the adapter's tick. -/
structure Event (α : Type) [FdAdapter α] where
  poll : EventLoop.Poll RuleName (Answers α)
  abort : Bool := false
  ms : Nat := 0
  writes : Nat → Answer Unit := fun _ => .ok ()

/-- A turn of `_tcp_loop`: whether another one may follow, the rules that are left, and the socket. -/
def turn (c : List RuleName × TCPSpongeSocket α) (event : Event α) :
    Except Failure (Bool × List RuleName × TCPSpongeSocket α) := do
  let (ret, rules, s) ← EventLoop.waitNextEvent rule c.1 c.2 event.poll
  if ret = .exit ∨ event.abort then return (false, rules, s)
  else if s.tcp.active then
    let adapter ← FdAdapter.tick s.adapter event.ms event.writes
    return (true, rules, { s with tcp := s.tcp.tick event.ms, adapter })
  else return (true, rules, s)

/-- `connect` up to its loop. -/
def connect (adapter : α) (tcp : Option TCPConnection) (cTcp : TCPConfig) (cAd : FdAdapterConfig) :
    Except Failure (TCPSpongeSocket α) :=
  if tcp.isSome then
    .error (.exn (.runtimeError "connect() with TCPConnection already initialized"))
  else
    let s := initializeTCP (FdAdapter.setConfig adapter cAd) cTcp
    let tcp := s.tcp.connect
    if tcp.state ≠ TCPState.official .synSent then
      .error (.exn (.runtimeError ("After TCPConnection::connect(), state was " ++ tcp.state.name ++
        " but expected " ++ (TCPState.official .synSent).name)))
    else .ok { s with tcp }

/-- `listen_and_accept` up to its loop. -/
def listenAndAccept (adapter : α) (tcp : Option TCPConnection) (cTcp : TCPConfig) (cAd : FdAdapterConfig) :
    Except Failure (TCPSpongeSocket α) :=
  if tcp.isSome then
    .error (.exn (.runtimeError "listen_and_accept() with TCPConnection already initialized"))
  else .ok (initializeTCP (FdAdapter.setListening (FdAdapter.setConfig adapter cAd) true) cTcp)

/-- The end of `_tcp_main`: the connection is destroyed. -/
def finish (s : TCPSpongeSocket α) : TCPSpongeSocket α := { s with tcp := s.tcp.destroy }

end TCPSpongeSocket

end Sponge
