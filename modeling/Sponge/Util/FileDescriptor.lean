import Sponge.Util.Buffer

/-!
# File descriptors

`libsponge/util/file_descriptor.cc`, with `shutdown` of `socket.cc` and `SystemCall` of `util.cc`. All
handles of a descriptor share one `FDWrapper`, so a descriptor is that wrapper's flags and counts. Beside
them stand the bytes that have gone through it so far, each way, and what each write has put through: this
is what the kernel has seen.

What the kernel answers to a call is an argument: an error number, or the bytes it hands out, or the
number of bytes it takes. It may answer anything, also what `read` and `write` check for and refuse.
-/

namespace Sponge

/-- What the calls on descriptors throw: `unix_error`, or another exception. -/
inductive Failure
  | unixError (attempt : String) (errno : Nat)
  | exn (e : Exn)
deriving DecidableEq, Repr

/-- What the kernel answers to a system call: a value, or an error number. -/
abbrev Answer (α : Type) := Except Nat α

/-- `SystemCall`: an error number is thrown, with the call it belongs to. -/
def systemCall {α : Type} (attempt : String) : Answer α → Except Failure α
  | .ok value => .ok value
  | .error errno => .error (.unixError attempt errno)

/-- The state behind the handles of a descriptor, and what has gone through it. -/
structure FileDescriptor where
  eof : Bool := false
  closed : Bool := false
  readCount : UInt32 := 0
  writeCount : UInt32 := 0
  received : Bytes := []
  delivered : Bytes := []
  packets : List Bytes := []
deriving DecidableEq, Repr

namespace FileDescriptor

variable (fd : FileDescriptor)

def registerRead : FileDescriptor := { fd with readCount := fd.readCount + 1 }

def registerWrite : FileDescriptor := { fd with writeCount := fd.writeCount + 1 }

/-- The maximum size of a read. -/
def BUFFER_SIZE : Nat := 1024 * 1024

/-- `read`: nothing read, though something was asked for, means the end. -/
def read (limit : Nat) (answer : Answer Bytes) : Except Failure (FileDescriptor × Bytes) := do
  let str ← systemCall "read" answer
  if min BUFFER_SIZE limit < str.length then
    throw (.exn (.runtimeError "read() read more than requested"))
  else
    let fd : FileDescriptor := { fd with
      eof := fd.eof || decide (0 < limit) && str.isEmpty
      received := fd.received ++ str }
    return (fd.registerRead, str)

/-- One turn of the loop of `write`: the descriptor, and the number of bytes taken. -/
def writev (buffer : Bytes) (answer : Answer Nat) : Except Failure (FileDescriptor × Nat) := do
  let bytesWritten ← systemCall "writev" answer
  if bytesWritten = 0 ∧ buffer.length ≠ 0 then
    throw (.exn (.runtimeError "write returned 0 given non-empty input buffer"))
  else if buffer.length < bytesWritten then
    throw (.exn (.runtimeError "write wrote more than length of input buffer"))
  else
    let fd : FileDescriptor := { fd with
      delivered := fd.delivered ++ buffer.take bytesWritten
      packets := fd.packets ++ [buffer.take bytesWritten] }
    return (fd.registerWrite, bytesWritten)

/-- `write` to a device that takes a packet whole or not at all: the loop has one turn. -/
def send (packet : Bytes) (answer : Answer Unit) : Except Failure FileDescriptor := do
  let written ← fd.writev packet (answer.map fun _ => packet.length)
  return written.1

/-- `close`. -/
def close (answer : Answer Unit) : Except Failure FileDescriptor := do
  systemCall "close" answer
  return { fd with eof := true, closed := true }

/-- How to shut a socket down. -/
inductive How
  | rd
  | wr
  | rdwr
deriving DecidableEq, Repr

/-- `shutdown` of a socket. -/
def shutdown (how : How) (answer : Answer Unit) : Except Failure FileDescriptor := do
  systemCall "shutdown" answer
  match how with
  | .rd => return fd.registerRead
  | .wr => return fd.registerWrite
  | .rdwr => return fd.registerRead.registerWrite

end FileDescriptor

end Sponge
