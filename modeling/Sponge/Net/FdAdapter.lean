import Sponge.Net.Adapter
import Sponge.Net.Interface
import Sponge.Util.FileDescriptor

/-!
# Adapters between TCP and a descriptor

`libsponge/tcp_helpers/fd_adapter.cc`, `tuntap_adapter.cc` and `lossy_fd_adapter.hh`, with the datagram
calls of `socket.cc` and the serializers of `ethernet_header.cc` and `ethernet_frame.cc`. An adapter reads
TCP segments from a descriptor and writes them to it: as UDP payloads, as IPv4 datagrams on a TUN device,
or as IPv4 datagrams in Ethernet frames on a TAP device. A lossy adapter drops some of them.

`FdAdapter` is what the template `TCPSpongeSocket` asks of its parameter. What the kernel answers to the
read of a call is one argument, and what it answers to its writes, in order, is another. A packet, a frame
or a datagram is taken whole or not at all.
-/

namespace Sponge

/-- What `TCPSpongeSocket` uses of an adapter. `Packet` is what the kernel hands to one read; `wire` is what
has been written so far, and `bytes` what a packet that is read holds of such a write. -/
class FdAdapter (α : Type) where
  Packet : Type
  fd : α → FileDescriptor
  setConfig : α → FdAdapterConfig → α
  setListening : α → Bool → α
  read : α → Answer Packet → (Nat → Answer Unit) → Except Failure (α × Option TCPSegment)
  write : α → TCPSegment → (Nat → Answer Unit) → Except Failure α
  tick : α → Nat → (Nat → Answer Unit) → Except Failure α
  wire : α → List Bytes
  bytes : Packet → Bytes

/-- A call that throws, among calls that may fail otherwise too. -/
def throws {β : Type} : Except Exn β → Except Failure β
  | .ok value => .ok value
  | .error e => .error (.exn e)

/-- `std::numeric_limits<size_t>::max()`, the default limit of a read. -/
def SIZE_MAX : Nat := 2 ^ 64 - 1

/-! ## IPv4 on a TUN device -/

structure TCPOverIPv4OverTunFdAdapter extends TCPOverIPv4Adapter where
  tun : FileDescriptor := {}
deriving DecidableEq

namespace TCPOverIPv4OverTunFdAdapter

variable (a : TCPOverIPv4OverTunFdAdapter)

/-- `read`: a datagram, and the segment in it if it belongs to the connection. -/
def read (answer : Answer Bytes) : Except Failure (TCPOverIPv4OverTunFdAdapter × Option TCPSegment) := do
  let (tun, packet) ← a.tun.read SIZE_MAX answer
  let ipDgram := IPv4Datagram.parse {} (Buffer.ofString packet)
  if ipDgram.1 ≠ .noError then return ({ a with tun }, none)
  else
    let unwrapped := a.unwrapTcpInIp ipDgram.2
    let seg ← throws unwrapped.2
    return ({ toTCPOverIPv4Adapter := unwrapped.1, tun }, seg)

/-- `write`. -/
def write (seg : TCPSegment) (writes : Nat → Answer Unit) : Except Failure TCPOverIPv4OverTunFdAdapter := do
  let ipDgram ← throws (a.wrapTcpInIp seg).2
  let packet ← throws ipDgram.serialize
  let tun ← a.tun.send packet.concatenate (writes 0)
  return { a with tun }

instance : FdAdapter TCPOverIPv4OverTunFdAdapter where
  Packet := Bytes
  fd := tun
  setConfig := fun a cfg => { a with cfg }
  setListening := fun a listen => { a with listen }
  read := fun a answer _ => a.read answer
  write := write
  tick := fun a _ _ => .ok a
  wire := fun a => a.tun.packets
  bytes := id

end TCPOverIPv4OverTunFdAdapter

/-! ## UDP -/

/-- A UDP socket, with the datagrams it has sent and where to. -/
structure UDPSocket where
  fd : FileDescriptor := {}
  sent : List (InetAddress × Bytes) := []
deriving DecidableEq

namespace UDPSocket

variable (s : UDPSocket)

/-- `recv`: a datagram, and where it comes from. -/
def recv (mtu : Nat) (answer : Answer (InetAddress × Bytes)) :
    Except Failure (UDPSocket × InetAddress × Bytes) := do
  let datagram ← systemCall "recvfrom" answer
  if mtu < datagram.2.length then throw (.exn (.runtimeError "recvfrom (oversized datagram)"))
  else return ({ s with fd := s.fd.registerRead }, datagram)

/-- `sendto`. -/
def sendto (destination : InetAddress) (payload : Bytes) (answer : Answer Unit) :
    Except Failure UDPSocket := do
  systemCall "sendmsg" answer
  return { fd := s.fd.registerWrite, sent := s.sent ++ [(destination, payload)] }

end UDPSocket

structure TCPOverUDPSocketAdapter where
  cfg : FdAdapterConfig := {}
  listen : Bool := false
  sock : UDPSocket := {}
deriving DecidableEq

namespace TCPOverUDPSocketAdapter

variable (a : TCPOverUDPSocketAdapter)

/-- `read`. A listening adapter takes its destination from the first SYN. -/
def read (answer : Answer (InetAddress × Bytes)) :
    Except Failure (TCPOverUDPSocketAdapter × Option TCPSegment) := do
  let (sock, sourceAddress, payload) ← a.sock.recv 65536 answer
  let a := { a with sock }
  if ¬a.listen ∧ sourceAddress ≠ a.cfg.destination then return (a, none)
  else
    let seg := ({} : TCPSegment).parse (Buffer.ofString payload) 0
    if seg.1 ≠ .noError then return (a, none)
    else if a.listen then
      if seg.2.header.syn ∧ ¬seg.2.header.rst then
        return ({ a with cfg := { a.cfg with destination := sourceAddress }, listen := false }, some seg.2)
      else return (a, none)
    else return (a, some seg.2)

/-- The segment with the adapter's port numbers. -/
def setPorts (seg : TCPSegment) : TCPSegment :=
  { seg with
    header := { seg.header with sport := a.cfg.source.port, dport := a.cfg.destination.port } }

/-- `write`. -/
def write (seg : TCPSegment) (writes : Nat → Answer Unit) : Except Failure TCPOverUDPSocketAdapter := do
  let payload ← throws ((a.setPorts seg).serialize 0)
  let sock ← a.sock.sendto a.cfg.destination payload.concatenate (writes 0)
  return { a with sock }

instance : FdAdapter TCPOverUDPSocketAdapter where
  Packet := InetAddress × Bytes
  fd := fun a => a.sock.fd
  setConfig := fun a cfg => { a with cfg }
  setListening := fun a listen => { a with listen }
  read := fun a answer _ => a.read answer
  write := write
  tick := fun a _ _ => .ok a
  wire := fun a => a.sock.sent.map Prod.snd
  bytes := Prod.snd

end TCPOverUDPSocketAdapter

/-! ## IPv4 in Ethernet frames on a TAP device -/

/-- `EthernetHeader::serialize`. -/
def EthernetHeader.serialize (h : EthernetHeader) : Bytes :=
  h.dst.1.flatMap NetUnparser.u8 ++ h.src.1.flatMap NetUnparser.u8 ++ NetUnparser.u16 h.type

/-- `EthernetFrame::serialize`. -/
def EthernetFrame.serialize (f : EthernetFrame) : BufferList :=
  (BufferList.empty.append (BufferList.ofString f.header.serialize)).append f.payload

structure TCPOverIPv4OverEthernetAdapter extends TCPOverIPv4Adapter where
  tap : FileDescriptor
  interface : NetworkInterface
  nextHop : Address

namespace TCPOverIPv4OverEthernetAdapter

variable (a : TCPOverIPv4OverEthernetAdapter)

/-- The loop of `send_pending`. -/
def sendFrames : List EthernetFrame → FileDescriptor → (Nat → Answer Unit) → Except Failure FileDescriptor
  | [], tap, _ => .ok tap
  | frame :: frames, tap, writes => do
    let tap ← tap.send frame.serialize.concatenate (writes 0)
    sendFrames frames tap fun i => writes (i + 1)

/-- `send_pending`. -/
def sendPending (writes : Nat → Answer Unit) : Except Failure TCPOverIPv4OverEthernetAdapter := do
  let tap ← sendFrames a.interface.framesOut a.tap writes
  return { a with tap, interface := { a.interface with framesOut := [] } }

/-- The constructor: a dummy frame is sent first. -/
def new (tap : FileDescriptor) (ethAddress : EthernetAddress) (ipAddress nextHop : Address)
    (answer : Answer Unit) : Except Failure TCPOverIPv4OverEthernetAdapter := do
  let tap ← tap.send ({} : EthernetFrame).serialize.concatenate answer
  return { tap, interface := NetworkInterface.new ethAddress ipAddress, nextHop }

/-- `read`: a frame for the interface, which may answer, and the segment in a datagram it hands out. -/
def read (answer : Answer Bytes) (writes : Nat → Answer Unit) :
    Except Failure (TCPOverIPv4OverEthernetAdapter × Option TCPSegment) := do
  let (tap, packet) ← a.tap.read SIZE_MAX answer
  let frame := EthernetFrame.parse {} (Buffer.ofString packet)
  if frame.1 ≠ .noError then return ({ a with tap }, none)
  else
    let received := a.interface.recvFrame frame.2
    let ipDgram ← throws received.2
    let a ← { a with tap, interface := received.1 }.sendPending writes
    match ipDgram with
    | none => return (a, none)
    | some ipDgram =>
      let unwrapped := a.unwrapTcpInIp ipDgram
      let seg ← throws unwrapped.2
      return ({ a with toTCPOverIPv4Adapter := unwrapped.1 }, seg)

/-- `write`. -/
def write (seg : TCPSegment) (writes : Nat → Answer Unit) :
    Except Failure TCPOverIPv4OverEthernetAdapter := do
  let ipDgram ← throws (a.wrapTcpInIp seg).2
  let sent := a.interface.sendDatagram ipDgram a.nextHop
  throws sent.2
  { a with interface := sent.1 }.sendPending writes

/-- `tick`. -/
def tick (msSinceLastTick : Nat) (writes : Nat → Answer Unit) :
    Except Failure TCPOverIPv4OverEthernetAdapter :=
  { a with interface := a.interface.tick msSinceLastTick }.sendPending writes

instance : FdAdapter TCPOverIPv4OverEthernetAdapter where
  Packet := Bytes
  fd := tap
  setConfig := fun a cfg => { a with cfg }
  setListening := fun a listen => { a with listen }
  read := read
  write := write
  tick := tick
  wire := fun a => a.tap.packets
  bytes := id

end TCPOverIPv4OverEthernetAdapter

/-! ## Losing some -/

/-- An adapter that drops segments at random. The loss rates are the part of the configuration that only
this adapter reads; `rand` is what the generator will answer. -/
structure LossyFdAdapter (α : Type) where
  adapter : α
  lossRateDn : UInt16
  lossRateUp : UInt16
  rand : Nat → UInt32

namespace LossyFdAdapter

variable {α : Type} [FdAdapter α] (a : LossyFdAdapter α)

/-- `_should_drop`: with a rate of zero no number is drawn. -/
def shouldDrop (uplink : Bool) : Bool × LossyFdAdapter α :=
  let loss := if uplink then a.lossRateUp else a.lossRateDn
  if loss = 0 then (false, a)
  else (decide ((a.rand 0).toUInt16 < loss), { a with rand := fun i => a.rand (i + 1) })

/-- `read`: what was read is dropped. -/
def read (answer : Answer (FdAdapter.Packet α)) (writes : Nat → Answer Unit) :
    Except Failure (LossyFdAdapter α × Option TCPSegment) := do
  let (adapter, ret) ← FdAdapter.read a.adapter answer writes
  let drop := { a with adapter }.shouldDrop false
  return (drop.2, if drop.1 then none else ret)

/-- `write`: what is dropped is not written. -/
def write (seg : TCPSegment) (writes : Nat → Answer Unit) : Except Failure (LossyFdAdapter α) := do
  let drop := a.shouldDrop true
  if drop.1 then return drop.2
  else
    let adapter ← FdAdapter.write drop.2.adapter seg writes
    return { drop.2 with adapter }

instance : FdAdapter (LossyFdAdapter α) where
  Packet := FdAdapter.Packet α
  fd := fun a => FdAdapter.fd a.adapter
  setConfig := fun a cfg => { a with adapter := FdAdapter.setConfig a.adapter cfg }
  setListening := fun a listen => { a with adapter := FdAdapter.setListening a.adapter listen }
  read := read
  write := write
  tick := fun a ms writes => do
    let adapter ← FdAdapter.tick a.adapter ms writes
    return { a with adapter }
  wire := fun a => FdAdapter.wire a.adapter
  bytes := FdAdapter.bytes

end LossyFdAdapter

end Sponge
