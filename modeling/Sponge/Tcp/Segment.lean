import Sponge.Tcp.WrappingIntegers
import Sponge.Util.Parser

/-!
# TCP segments

`libsponge/tcp_helpers/tcp_header.cc` and `tcp_segment.cc`: the header fields, the segment, its
length in sequence space, reading one off the wire and writing one. Parsing fills the fields of an
object in the order they are read; it answers the object beside the result, since the object keeps
what was read when parsing fails.
-/

namespace Sponge

/-- The fields of a TCP header, with the source's defaults. -/
structure TCPHeader where
  sport : UInt16 := 0
  dport : UInt16 := 0
  seqno : WrappingInt32 := ⟨0⟩
  ackno : WrappingInt32 := ⟨0⟩
  doff : UInt8 := 5
  urg : Bool := false
  ack : Bool := false
  psh : Bool := false
  rst : Bool := false
  syn : Bool := false
  fin : Bool := false
  win : UInt16 := 0
  cksum : UInt16 := 0
  uptr : UInt16 := 0
deriving DecidableEq

namespace TCPHeader

/-- The length of a header without options. -/
def LENGTH : Nat := 20

/-- The reads of `parse`, field by field: each is a value with the parser behind it. -/
def readFields (p : NetParser) : TCPHeader × NetParser :=
  let sport := p.u16
  let dport := sport.2.u16
  let seqno := dport.2.u32
  let ackno := seqno.2.u32
  let doff := ackno.2.u8
  let flB := doff.2.u8
  let win := flB.2.u16
  let cksum := win.2.u16
  let uptr := cksum.2.u16
  ({ sport := sport.1
     dport := dport.1
     seqno := ⟨seqno.1⟩
     ackno := ⟨ackno.1⟩
     doff := doff.1 >>> 4
     urg := flB.1 &&& 0b00100000 ≠ 0
     ack := flB.1 &&& 0b00010000 ≠ 0
     psh := flB.1 &&& 0b00001000 ≠ 0
     rst := flB.1 &&& 0b00000100 ≠ 0
     syn := flB.1 &&& 0b00000010 ≠ 0
     fin := flB.1 &&& 0b00000001 ≠ 0
     win := win.1
     cksum := cksum.1
     uptr := uptr.1 }, uptr.2)

/-- `parse`: read the fields, check the data offset, and skip the options. -/
def parse (p : NetParser) : (ParseResult × TCPHeader) × NetParser :=
  let fields := readFields p
  if fields.1.doff < 5 then ((.headerTooShort, fields.1), fields.2)
  else
    let rest := fields.2.removePrefix (fields.1.doff.toNat * 4 - LENGTH)
    if rest.error ≠ .noError then ((rest.error, fields.1), rest)
    else ((.noError, fields.1), rest)

variable (h : TCPHeader)

/-- The fields on the wire, without options. -/
def wireFields : Bytes :=
  let flB : UInt8 :=
    (if h.urg then 0b00100000 else 0) ||| (if h.ack then 0b00010000 else 0) |||
      (if h.psh then 0b00001000 else 0) ||| (if h.rst then 0b00000100 else 0) |||
      (if h.syn then 0b00000010 else 0) ||| (if h.fin then 0b00000001 else 0)
  NetUnparser.u16 h.sport ++ NetUnparser.u16 h.dport ++ NetUnparser.u32 h.seqno.rawValue ++
    NetUnparser.u32 h.ackno.rawValue ++ NetUnparser.u8 (h.doff <<< 4) ++ NetUnparser.u8 flB ++
    NetUnparser.u16 h.win ++ NetUnparser.u16 h.cksum ++ NetUnparser.u16 h.uptr

/-- `serialize`: the sanity check, then the fields, expanded to the advertised size. -/
def serialize : Except Exn Bytes :=
  if h.doff < 5 then .error (.runtimeError "TCP header too short")
  else .ok (resize h.wireFields (4 * h.doff.toNat))

end TCPHeader

/-- A TCP segment: a header and a payload. -/
structure TCPSegment where
  header : TCPHeader := {}
  payload : Buffer := Buffer.empty
deriving DecidableEq

namespace TCPSegment

/-- `length_in_sequence_space`: the payload, and one more for each of SYN and FIN. -/
def lengthInSequenceSpace (seg : TCPSegment) : Nat :=
  seg.payload.str.length + (if seg.header.syn then 1 else 0) + (if seg.header.fin then 1 else 0)

/-- `parse`: verify the checksum over everything, read the header, and keep the rest as payload. The
result of `TCPHeader::parse` is not looked at; only the parser's own error is answered. -/
def parse (seg : TCPSegment) (buffer : Buffer) (datagramLayerChecksum : UInt32) :
    ParseResult × TCPSegment :=
  let check := (InternetChecksum.new datagramLayerChecksum).add buffer.str
  if check.value ≠ 0 then (.badChecksum, seg)
  else
    let parsed := TCPHeader.parse (NetParser.new buffer)
    (parsed.2.error, { header := parsed.1.2, payload := parsed.2.buffer })

/-- `serialize`: the header with a fresh checksum over everything, and the payload. -/
def serialize (seg : TCPSegment) (datagramLayerChecksum : UInt32) : Except Exn BufferList := do
  let headerZeroChecksum ← { seg.header with cksum := 0 }.serialize
  let check :=
    ((InternetChecksum.new datagramLayerChecksum).add headerZeroChecksum).add seg.payload.str
  let headerOut ← { seg.header with cksum := check.value }.serialize
  return (BufferList.empty.append (BufferList.ofString headerOut)).append
    (BufferList.ofBuffer seg.payload)

end TCPSegment

end Sponge
