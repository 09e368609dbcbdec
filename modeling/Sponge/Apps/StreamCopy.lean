import Sponge.Stream.ByteStream
import Sponge.Util.EventLoop

/-!
# Copying a socket to the terminal and back

`apps/bidirectional_stream_copy.cc`: bytes go from the standard input to a socket through the byte stream
`outbound`, and from the socket to the standard output through `inbound`. Four rules of an event loop move
them, a reading and a writing one for each way; what the two of a kind have in common is `fill` and
`drain`. The three calls of `set_blocking` are left out.
-/

namespace Sponge

namespace StreamCopy

open EventLoop (Rule)

def maxCopyLength : Nat := 65536

def bufferSize : Nat := 1048576

/-- What the rules' closures share. -/
structure State where
  input : FileDescriptor := {}
  output : FileDescriptor := {}
  socket : FileDescriptor := {}
  outbound : ByteStream := .new bufferSize
  inbound : ByteStream := .new bufferSize
  outboundShutdown : Bool := false
  inboundShutdown : Bool := false
deriving DecidableEq

/-- What the kernel answers to the calls one callback may make: a read, a write, a shutdown or close. -/
structure Answers where
  data : Answer Bytes := .ok []
  count : Answer Nat := .ok 0
  closing : Answer Unit := .ok ()

/-- The four rules, in the order they are added. -/
inductive RuleName
  | readInput
  | writeSocket
  | readSocket
  | writeOutput
deriving DecidableEq, Repr

/-- Read into a stream what it has room for, and end it with the descriptor. -/
def fill (stream : ByteStream) (fd : FileDescriptor) (answers : Answers) :
    Except Failure (ByteStream × FileDescriptor) := do
  let (fd, data) ← fd.read stream.remainingCapacity answers.data
  let stream := (stream.write data).1
  return (if fd.eof then stream.endInput else stream, fd)

/-- Write from a stream, and pop what was taken. -/
def drain (stream : ByteStream) (fd : FileDescriptor) (answers : Answers) :
    Except Failure (ByteStream × FileDescriptor) := do
  let bytesToWrite := min maxCopyLength stream.bufferSize
  let (fd, bytesWritten) ← fd.writev (stream.peekOutput bytesToWrite) answers.count
  return (stream.popOutput bytesWritten, fd)

/-- A reading rule is interested while its stream has room and there is no error either way. -/
def hasRoom (stream other : ByteStream) : Bool :=
  !stream.error && decide (0 < stream.remainingCapacity) && !other.error

/-- A writing rule is interested while there are bytes, or the end to pass on. -/
def hasMore (stream : ByteStream) (shutdown : Bool) : Bool := !stream.bufferEmpty || stream.eof && !shutdown

def readInput (answers : Answers) (s : State) : Except Failure State := do
  let (outbound, input) ← fill s.outbound s.input answers
  return { s with outbound, input }

def writeSocket (answers : Answers) (s : State) : Except Failure State := do
  let (outbound, socket) ← drain s.outbound s.socket answers
  if outbound.eof then
    return { s with outbound, socket := ← socket.shutdown .wr answers.closing, outboundShutdown := true }
  else return { s with outbound, socket }

def readSocket (answers : Answers) (s : State) : Except Failure State := do
  let (inbound, socket) ← fill s.inbound s.socket answers
  return { s with inbound, socket }

def writeOutput (answers : Answers) (s : State) : Except Failure State := do
  let (inbound, output) ← drain s.inbound s.output answers
  if inbound.eof then
    return { s with inbound, output := ← output.close answers.closing, inboundShutdown := true }
  else return { s with inbound, output }

def rule : RuleName → Rule State Answers
  | .readInput =>
    { fd := State.input
      direction := .In
      callback := readInput
      interest := fun s => hasRoom s.outbound s.inbound
      cancel := fun s => { s with outbound := s.outbound.endInput } }
  | .writeSocket =>
    { fd := State.socket
      direction := .Out
      callback := writeSocket
      interest := fun s => hasMore s.outbound s.outboundShutdown
      cancel := fun s => { s with outbound := s.outbound.endInput } }
  | .readSocket =>
    { fd := State.socket
      direction := .In
      callback := readSocket
      interest := fun s => hasRoom s.inbound s.outbound
      cancel := fun s => { s with inbound := s.inbound.endInput } }
  | .writeOutput =>
    { fd := State.output
      direction := .Out
      callback := writeOutput
      interest := fun s => hasMore s.inbound s.inboundShutdown
      cancel := fun s => { s with inbound := s.inbound.endInput } }

/-- The loop before its first turn. -/
def rules : List RuleName := [.readInput, .writeSocket, .readSocket, .writeOutput]

end StreamCopy

end Sponge
