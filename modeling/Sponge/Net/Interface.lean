import Sponge.Lib.SortedMap
import Sponge.Lib.Word
import Sponge.Net.Ethernet
import Sponge.Net.IPv4

/-!
# The network interface

`libsponge/network_interface.cc`, with the addresses of `util/address.cc` and the asynchronous wrapper
of `router.hh`. The interface turns datagrams into Ethernet frames. It learns where a next hop is from
the ARP messages it sees, and keeps a datagram whose next hop it does not know.

A member call that may throw answers the object beside its result: what was changed before the throw
stays changed. The queue `framesOut` is drained by the owner; here it is never drained, so it is the
history of everything sent. The clock is a 64-bit counter that wraps.
-/

namespace Sponge

open Word64 (add)

/-- A socket address: an IPv4 address with a port, or one of another family, of which nothing is
used. -/
inductive Address
  | inet (ip : UInt32) (port : UInt16)
  | other (raw : Bytes)
deriving DecidableEq

namespace Address

/-- `ipv4_numeric`, which throws for another family. -/
def ipv4Numeric : Address → Except Exn UInt32
  | .inet ip _ => .ok ip
  | .other _ => .error (.runtimeError "ipv4_numeric called on non-IPV4 address")

/-- `from_ipv4_numeric`. -/
def fromIpv4Numeric (ip : UInt32) : Address := .inet ip 0

end Address

/-- The interface's state. -/
structure NetworkInterface where
  ethernetAddress : EthernetAddress
  ipAddress : Address
  framesOut : List EthernetFrame
  crtTime : Nat
  ipMap : SortedMap UInt32 (EthernetAddress × Nat)
  unknownDatagramMap : SortedMap UInt32 IPv4Datagram
  ipArpTime : SortedMap UInt32 Nat

namespace NetworkInterface

def MAPPING_EXPIRE_TIME_MS : Nat := 30000

def DST_IP_EXPIRE_TIME_MS : Nat := 5000

/-- A fresh interface. -/
def new (ethernetAddress : EthernetAddress) (ipAddress : Address) : NetworkInterface where
  ethernetAddress := ethernetAddress
  ipAddress := ipAddress
  framesOut := []
  crtTime := 0
  ipMap := SortedMap.empty
  unknownDatagramMap := SortedMap.empty
  ipArpTime := SortedMap.empty

variable (n : NetworkInterface)

/-- `send_payload`: queue a frame. -/
def sendPayload (eaddr : EthernetAddress) (payload : BufferList) (type : UInt16) : NetworkInterface :=
  { n with
    framesOut := n.framesOut ++
      [{ header := { dst := eaddr, src := n.ethernetAddress, type }, payload }] }

/-- Serialize a datagram and queue it as a frame. -/
def sendSerialized (eaddr : EthernetAddress) (dgram : IPv4Datagram) :
    NetworkInterface × Except Exn Unit :=
  match dgram.serialize with
  | .error e => (n, .error e)
  | .ok payload => (n.sendPayload eaddr payload EthernetHeader.TYPE_IPv4, .ok ())

/-- Serialize an ARP message and queue it as a frame. -/
def sendArp (eaddr : EthernetAddress) (msg : ARPMessage) : NetworkInterface × Except Exn Unit :=
  match msg.serialize with
  | .error e => (n, .error e)
  | .ok payload => (n.sendPayload eaddr (BufferList.ofString payload) EthernetHeader.TYPE_ARP, .ok ())

/-- `broad_cast`: ask for an address, unless it was asked for lately. -/
def broadCast (addr : Address) : NetworkInterface × Except Exn Unit :=
  match addr.ipv4Numeric with
  | .error e => (n, .error e)
  | .ok ip =>
    if n.ipArpTime.contains ip then (n, .ok ())
    else
      match n.ipAddress.ipv4Numeric with
      | .error e => (n, .error e)
      | .ok own =>
        let msg : ARPMessage :=
          { opcode := 1
            senderEthernetAddress := n.ethernetAddress
            senderIpAddress := own
            targetIpAddress := ip }
        match n.sendArp ETHERNET_BROADCAST msg with
        | (n, .error e) => (n, .error e)
        | (n, .ok ()) =>
          ({ n with ipArpTime := n.ipArpTime.insert ip (add n.crtTime DST_IP_EXPIRE_TIME_MS) }, .ok ())

/-- `send_datagram`: send to a known hop; else keep the datagram and ask for the hop. -/
def sendDatagram (dgram : IPv4Datagram) (nextHop : Address) : NetworkInterface × Except Exn Unit :=
  match nextHop.ipv4Numeric with
  | .error e => (n, .error e)
  | .ok ip =>
    match n.ipMap.find? ip with
    | some mapping => n.sendSerialized mapping.1 dgram
    | none =>
      { n with unknownDatagramMap := n.unknownDatagramMap.insert ip dgram }.broadCast nextHop

/-- Learn a mapping, and send the datagram that waits for it. -/
def learn (ip : UInt32) (eaddr : EthernetAddress) : NetworkInterface × Except Exn Unit :=
  let learned :=
    { n with ipMap := n.ipMap.insert ip (eaddr, add n.crtTime MAPPING_EXPIRE_TIME_MS) }
  match n.unknownDatagramMap.find? ip with
  | none => (learned, .ok ())
  | some dgram =>
    match learned.sendSerialized eaddr dgram with
    | (sent, .error e) => (sent, .error e)
    | (sent, .ok ()) =>
      ({ sent with unknownDatagramMap := sent.unknownDatagramMap.erase ip }, .ok ())

/-- Answer a request for the interface's own address. -/
def answer (msg : ARPMessage) : NetworkInterface × Except Exn Unit :=
  match n.ipAddress.ipv4Numeric with
  | .error e => (n, .error e)
  | .ok own =>
    if msg.targetIpAddress = own then
      n.sendArp msg.senderEthernetAddress
        { opcode := 2
          senderEthernetAddress := n.ethernetAddress
          senderIpAddress := own
          targetEthernetAddress := msg.senderEthernetAddress
          targetIpAddress := msg.senderIpAddress }
    else (n, .ok ())

/-- The ARP branch of `recv_frame`: learn the sender, and for a reply the target too. -/
def receiveArp (msg : ARPMessage) : NetworkInterface × Except Exn Unit :=
  match n.learn msg.senderIpAddress msg.senderEthernetAddress with
  | (n, .error e) => (n, .error e)
  | (n, .ok ()) =>
    if msg.opcode = 2 then n.learn msg.targetIpAddress msg.targetEthernetAddress
    else if msg.opcode = 1 then n.answer msg
    else (n, .ok ())

/-- `recv_frame`. -/
def recvFrame (frame : EthernetFrame) : NetworkInterface × Except Exn (Option IPv4Datagram) :=
  if frame.header.dst ≠ n.ethernetAddress ∧ frame.header.dst ≠ ETHERNET_BROADCAST then (n, .ok none)
  else if frame.header.type = EthernetHeader.TYPE_IPv4 then
    match frame.payload.toBuffer with
    | .error e => (n, .error e)
    | .ok buffer =>
      let parsed := IPv4Datagram.parse {} buffer
      (n, .ok (if parsed.1 = .noError then some parsed.2 else none))
  else if frame.header.type = EthernetHeader.TYPE_ARP then
    match frame.payload.toBuffer with
    | .error e => (n, .error e)
    | .ok buffer =>
      let parsed := ARPMessage.parse {} buffer
      if parsed.1 = .noError then
        let received := n.receiveArp parsed.2
        (received.1, received.2.map fun _ => none)
      else (n, .ok none)
  else (n, .ok none)

/-- `flush_expire_mapping`. -/
def flushExpireMapping : NetworkInterface :=
  { n with ipMap := n.ipMap.filter fun e => n.crtTime < e.2.2 }

/-- `flush_expire_arp_log`. -/
def flushExpireArpLog : NetworkInterface :=
  { n with ipArpTime := n.ipArpTime.filter fun e => n.crtTime < e.2 }

/-- `tick`. -/
def tick (msSinceLastTick : Nat) : NetworkInterface :=
  { n with crtTime := add n.crtTime msSinceLastTick }.flushExpireMapping.flushExpireArpLog

end NetworkInterface

/-- An interface that keeps the datagrams it receives. -/
structure AsyncNetworkInterface where
  net : NetworkInterface
  datagramsOut : List IPv4Datagram

/-- `AsyncNetworkInterface::recv_frame`. -/
def AsyncNetworkInterface.recvFrame (a : AsyncNetworkInterface) (frame : EthernetFrame) :
    AsyncNetworkInterface × Except Exn Unit :=
  match a.net.recvFrame frame with
  | (net, .error e) => ({ a with net }, .error e)
  | (net, .ok received) => ({ net, datagramsOut := a.datagramsOut ++ received.toList }, .ok ())

end Sponge
