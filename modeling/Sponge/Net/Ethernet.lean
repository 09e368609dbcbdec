import Sponge.Util.Parser

/-!
# Ethernet frames and ARP messages

`libsponge/tcp_helpers/ethernet_header.cc`, `ethernet_frame.cc` and `arp_message.cc`. An Ethernet
address is a string of six bytes. As for IPv4, parsing fills an object that is there before.
-/

namespace Sponge

/-- Six bytes. -/
abbrev EthernetAddress := { b : Bytes // b.length = 6 }

/-- The address every interface listens to. -/
def ETHERNET_BROADCAST : EthernetAddress := ⟨List.replicate 6 0xff, rfl⟩

/-- Reading single bytes answers that many. -/
theorem NetParser.length_bytes (n : Nat) (p : NetParser) : (NetParser.bytes n p).1.length = n := by
  induction n generalizing p with
  | zero => rfl
  | succ n ih => exact congrArg (· + 1) (ih p.u8.2)

namespace EthernetAddress

/-- Six zero bytes, which a value-initialised object holds. -/
def zero : EthernetAddress := ⟨List.replicate 6 0, rfl⟩

/-- Read an address byte by byte. -/
def read (p : NetParser) : EthernetAddress × NetParser :=
  (⟨(NetParser.bytes 6 p).1, NetParser.length_bytes 6 p⟩, (NetParser.bytes 6 p).2)

end EthernetAddress

/-- The fields of an Ethernet header. -/
structure EthernetHeader where
  dst : EthernetAddress := EthernetAddress.zero
  src : EthernetAddress := EthernetAddress.zero
  type : UInt16 := 0
deriving DecidableEq

namespace EthernetHeader

def LENGTH : Nat := 14

def TYPE_IPv4 : UInt16 := 0x800

def TYPE_ARP : UInt16 := 0x806

/-- `parse`, into an object whose header is `h`. -/
def parse (h : EthernetHeader) (p : NetParser) : (ParseResult × EthernetHeader) × NetParser :=
  if p.buffer.size < LENGTH then ((.packetTooShort, h), p)
  else
    let dst := EthernetAddress.read p
    let src := EthernetAddress.read dst.2
    let type := src.2.u16
    ((type.2.error, { dst := dst.1, src := src.1, type := type.1 }), type.2)

end EthernetHeader

/-- An Ethernet frame: a header and a payload. -/
structure EthernetFrame where
  header : EthernetHeader := {}
  payload : BufferList := BufferList.empty
deriving DecidableEq

/-- `EthernetFrame::parse`, into an object that is there before. The header's own result is not
looked at, only the parser's error is. -/
def EthernetFrame.parse (f : EthernetFrame) (buffer : Buffer) : ParseResult × EthernetFrame :=
  let parsed := f.header.parse (NetParser.new buffer)
  (parsed.2.error, { header := parsed.1.2, payload := BufferList.ofBuffer parsed.2.buffer })

/-- The fields of an ARP message, with the source's defaults. -/
structure ARPMessage where
  hardwareType : UInt16 := 1
  protocolType : UInt16 := EthernetHeader.TYPE_IPv4
  hardwareAddressSize : UInt8 := 6
  protocolAddressSize : UInt8 := 4
  opcode : UInt16 := 0
  senderEthernetAddress : EthernetAddress := EthernetAddress.zero
  senderIpAddress : UInt32 := 0
  targetEthernetAddress : EthernetAddress := EthernetAddress.zero
  targetIpAddress : UInt32 := 0
deriving DecidableEq

namespace ARPMessage

def LENGTH : Nat := 28

def TYPE_ETHERNET : UInt16 := 1

def OPCODE_REQUEST : UInt16 := 1

def OPCODE_REPLY : UInt16 := 2

/-- `supported`: Ethernet and IPv4, a request or a reply. -/
def supported (m : ARPMessage) : Bool :=
  m.hardwareType = TYPE_ETHERNET && m.protocolType = EthernetHeader.TYPE_IPv4 &&
    m.hardwareAddressSize = 6 && m.protocolAddressSize = 4 &&
    (m.opcode = OPCODE_REQUEST || m.opcode = OPCODE_REPLY)

/-- `parse`, into an object that is there before. -/
def parse (m : ARPMessage) (buffer : Buffer) : ParseResult × ARPMessage :=
  let p := NetParser.new buffer
  if p.buffer.size < LENGTH then (.packetTooShort, m)
  else
    let hardwareType := p.u16
    let protocolType := hardwareType.2.u16
    let hardwareAddressSize := protocolType.2.u8
    let protocolAddressSize := hardwareAddressSize.2.u8
    let opcode := protocolAddressSize.2.u16
    let m := { m with
      hardwareType := hardwareType.1
      protocolType := protocolType.1
      hardwareAddressSize := hardwareAddressSize.1
      protocolAddressSize := protocolAddressSize.1
      opcode := opcode.1 }
    if m.supported = false then (.unsupported, m)
    else
      let senderEthernetAddress := EthernetAddress.read opcode.2
      let senderIpAddress := senderEthernetAddress.2.u32
      let targetEthernetAddress := EthernetAddress.read senderIpAddress.2
      let targetIpAddress := targetEthernetAddress.2.u32
      (targetIpAddress.2.error, { m with
        senderEthernetAddress := senderEthernetAddress.1
        senderIpAddress := senderIpAddress.1
        targetEthernetAddress := targetEthernetAddress.1
        targetIpAddress := targetIpAddress.1 })

/-- `serialize`, which throws for an unsupported message. -/
def serialize (m : ARPMessage) : Except Exn Bytes :=
  if m.supported = false then
    .error (.runtimeError
      "ARPMessage::serialize(): unsupported field combination (must be Ethernet/IP, and request or reply)")
  else
    .ok (NetUnparser.u16 m.hardwareType ++ NetUnparser.u16 m.protocolType ++
      NetUnparser.u8 m.hardwareAddressSize ++ NetUnparser.u8 m.protocolAddressSize ++
      NetUnparser.u16 m.opcode ++
      m.senderEthernetAddress.1.flatMap NetUnparser.u8 ++ NetUnparser.u32 m.senderIpAddress ++
      m.targetEthernetAddress.1.flatMap NetUnparser.u8 ++ NetUnparser.u32 m.targetIpAddress)

end ARPMessage

end Sponge
