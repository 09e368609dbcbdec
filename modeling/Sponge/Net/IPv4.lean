import Sponge.Util.Parser

/-!
# IPv4 datagrams

`libsponge/tcp_helpers/ipv4_header.cc` and `ipv4_datagram.cc`. Parsing fills an object that is there
before: a buffer too short for a header leaves the header as it was, and the datagram's own length
check then reads the old fields. So `parse` takes the object and answers it with the result.

The header's own result is not looked at by `IPv4Datagram.parse`, only the parser's error is.
-/

namespace Sponge

/-- The fields of an IPv4 header, with the source's defaults. -/
structure IPv4Header where
  ver : UInt8 := 4
  hlen : UInt8 := 5
  tos : UInt8 := 0
  len : UInt16 := 0
  id : UInt16 := 0
  df : Bool := true
  mf : Bool := false
  offset : UInt16 := 0
  ttl : UInt8 := 128
  proto : UInt8 := 6
  cksum : UInt16 := 0
  src : UInt32 := 0
  dst : UInt32 := 0
deriving DecidableEq, Repr

namespace IPv4Header

/-- The length of a header without options. -/
def LENGTH : Nat := 20

/-- The reads of `parse`, field by field: each is a value with the parser behind it. -/
def readFields (p : NetParser) : IPv4Header × NetParser :=
  let firstByte := p.u8
  let tos := firstByte.2.u8
  let len := tos.2.u16
  let id := len.2.u16
  let foVal := id.2.u16
  let ttl := foVal.2.u8
  let proto := ttl.2.u8
  let cksum := proto.2.u16
  let src := cksum.2.u32
  let dst := src.2.u32
  ({ ver := firstByte.1 >>> 4
     hlen := firstByte.1 &&& 0x0f
     tos := tos.1
     len := len.1
     id := id.1
     df := foVal.1 &&& 0x4000 ≠ 0
     mf := foVal.1 &&& 0x2000 ≠ 0
     offset := foVal.1 &&& 0x1fff
     ttl := ttl.1
     proto := proto.1
     cksum := cksum.1
     src := src.1
     dst := dst.1 }, dst.2)

/-- The checks of `parse` behind the reads, for a packet `original`: the lengths and the version, the
options, which are skipped, and the checksum over the header. -/
def check (h : IPv4Header) (original : Buffer) (p : NetParser) : ParseResult × NetParser :=
  if original.size < 4 * h.hlen.toNat then (.packetTooShort, p)
  else if h.ver ≠ 4 then (.wrongIPVersion, p)
  else if h.hlen < 5 then (.headerTooShort, p)
  else if original.size ≠ h.len.toNat then (.truncatedPacket, p)
  else
    let p := p.removePrefix (h.hlen.toNat * 4 - LENGTH)
    if p.error ≠ .noError then (p.error, p)
    else if ((InternetChecksum.new 0).add (original.str.take (4 * h.hlen.toNat))).value ≠ 0 then
      (.badChecksum, p)
    else (.noError, p)

/-- `parse`, into an object whose header is `h`. -/
def parse (h : IPv4Header) (p : NetParser) : (ParseResult × IPv4Header) × NetParser :=
  if p.buffer.size < LENGTH then ((.packetTooShort, h), p)
  else
    let fields := readFields p
    let checked := fields.1.check p.buffer fields.2
    ((checked.1, fields.1), checked.2)

variable (h : IPv4Header)

/-- The fields on the wire, without options. -/
def wireFields : Bytes :=
  let foVal : UInt16 :=
    (if h.df then 0x4000 else 0) ||| (if h.mf then 0x2000 else 0) ||| (h.offset &&& 0x1fff)
  NetUnparser.u8 ((h.ver <<< 4) ||| (h.hlen &&& 0xf)) ++ NetUnparser.u8 h.tos ++
    NetUnparser.u16 h.len ++ NetUnparser.u16 h.id ++ NetUnparser.u16 foVal ++
    NetUnparser.u8 h.ttl ++ NetUnparser.u8 h.proto ++ NetUnparser.u16 h.cksum ++
    NetUnparser.u32 h.src ++ NetUnparser.u32 h.dst

/-- `serialize`: the sanity checks, then the fields, expanded to the advertised size. -/
def serialize : Except Exn Bytes :=
  if h.ver ≠ 4 then .error (.runtimeError "wrong IP version")
  else if 4 * h.hlen.toNat < LENGTH then .error (.runtimeError "IP header too short")
  else .ok (resize h.wireFields (4 * h.hlen.toNat))

/-- `payload_length`, in 16 bits. -/
def payloadLength : UInt16 := h.len - 4 * h.hlen.toUInt16

/-- The protocol number of TCP. -/
def PROTO_TCP : UInt8 := 6

/-- `pseudo_cksum`: the pseudo-header's part of the sum over an encapsulated segment. -/
def pseudoCksum : UInt32 :=
  (h.src >>> 16) + (h.src &&& (0xffff : UInt32)) +
    ((h.dst >>> 16) + (h.dst &&& (0xffff : UInt32))) + h.proto.toUInt32 + h.payloadLength.toUInt32

end IPv4Header

/-- An IPv4 datagram: a header and a payload. -/
structure IPv4Datagram where
  header : IPv4Header := {}
  payload : BufferList := BufferList.empty
deriving DecidableEq

namespace IPv4Datagram

/-- `parse`, into an object that is there before. -/
def parse (d : IPv4Datagram) (buffer : Buffer) : ParseResult × IPv4Datagram :=
  let parsed := d.header.parse (NetParser.new buffer)
  let header := parsed.1.2
  let payload := BufferList.ofBuffer parsed.2.buffer
  (if payload.size ≠ header.payloadLength.toNat then .packetTooShort else parsed.2.error,
    { header, payload })

/-- `serialize`: the header with a fresh checksum, and the payload. -/
def serialize (d : IPv4Datagram) : Except Exn BufferList :=
  if d.payload.size ≠ d.header.payloadLength.toNat then
    .error (.runtimeError "IPv4Datagram::serialize: payload is wrong size")
  else do
    let headerZeroChecksum ← { d.header with cksum := 0 }.serialize
    let check := (InternetChecksum.new 0).add headerZeroChecksum
    let headerOut ← { d.header with cksum := check.value }.serialize
    return (BufferList.empty.append (BufferList.ofString headerOut)).append d.payload

end IPv4Datagram

end Sponge
