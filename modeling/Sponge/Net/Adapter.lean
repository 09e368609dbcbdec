import Sponge.Net.IPv4
import Sponge.Tcp.Segment

/-!
# The adapter between TCP and IPv4

`libsponge/tcp_helpers/tcp_over_ip.cc` on the state of `fd_adapter.hh`: a segment is wrapped in a
datagram with the adapter's addresses and ports, and a datagram is unwrapped when it belongs to the
adapter's connection. A listening adapter takes its connection from the first SYN it unwraps.

The addresses of a configuration are IPv4 ones, each the number and the port it stands for: with another
family every call would throw. The text form that `inet_ntoa` writes and the constructor reads back is
left out: it stands for the same number.
-/

namespace Sponge

/-- An address of the IPv4 family, with its port. -/
structure InetAddress where
  ipv4Numeric : UInt32 := 0
  port : UInt16 := 0
deriving DecidableEq, Repr

/-- `FdAdapterConfig`, without the loss rates, which only the lossy adapter reads. -/
structure FdAdapterConfig where
  source : InetAddress := {}
  destination : InetAddress := {}
deriving DecidableEq, Repr

/-- The state of an adapter: its configuration, and whether its connection is in the listen state. -/
structure TCPOverIPv4Adapter where
  cfg : FdAdapterConfig := {}
  listen : Bool := false
deriving DecidableEq, Repr

namespace TCPOverIPv4Adapter

variable (a : TCPOverIPv4Adapter)

/-- The segment with the adapter's port numbers. -/
def setPorts (seg : TCPSegment) : TCPSegment :=
  { seg with
    header := { seg.header with sport := a.cfg.source.port, dport := a.cfg.destination.port } }

/-- The header of the datagram around a segment: the addresses, and the length in 16 bits. -/
def ipHeader (seg : TCPSegment) : IPv4Header :=
  let header : IPv4Header :=
    { src := a.cfg.source.ipv4Numeric, dst := a.cfg.destination.ipv4Numeric }
  { header with
    len := (header.hlen.toNat * 4 + seg.header.doff.toNat * 4 + seg.payload.size).toUInt16 }

/-- `wrap_tcp_in_ip`: the segment, which the call changes, and the datagram around it. -/
def wrapTcpInIp (seg : TCPSegment) : TCPSegment × Except Exn IPv4Datagram :=
  let seg := a.setPorts seg
  let header := a.ipHeader seg
  (seg, (seg.serialize header.pseudoCksum).map fun payload => { header, payload })

/-- The listening branch of `unwrap_tcp_in_ip`: a SYN without RST gives the connection its addresses
and its peer's port, and ends the listening. -/
def accept (header : IPv4Header) (seg : TCPSegment) : TCPOverIPv4Adapter :=
  { cfg := { source := ⟨header.dst, a.cfg.source.port⟩, destination := ⟨header.src, seg.header.sport⟩ }
    listen := false }

/-- The checks of `unwrap_tcp_in_ip` on a segment that parsed. -/
def checkRelated (header : IPv4Header) (seg : TCPSegment) : TCPOverIPv4Adapter × Option TCPSegment :=
  if seg.header.dport ≠ a.cfg.source.port then (a, none)
  else if a.listen ∧ ¬(seg.header.syn ∧ ¬seg.header.rst) then (a, none)
  else
    let a := if a.listen then a.accept header seg else a
    if seg.header.sport ≠ a.cfg.destination.port then (a, none)
    else (a, some seg)

/-- `unwrap_tcp_in_ip`: the segment of a datagram for this connection. The payload is read as one
buffer, and that conversion throws for a payload of several. -/
def unwrapTcpInIp (ipDgram : IPv4Datagram) : TCPOverIPv4Adapter × Except Exn (Option TCPSegment) :=
  if ¬a.listen ∧ ipDgram.header.dst ≠ a.cfg.source.ipv4Numeric then (a, .ok none)
  else if ¬a.listen ∧ ipDgram.header.src ≠ a.cfg.destination.ipv4Numeric then (a, .ok none)
  else if ipDgram.header.proto ≠ IPv4Header.PROTO_TCP then (a, .ok none)
  else
    match ipDgram.payload.toBuffer with
    | .error e => (a, .error e)
    | .ok buffer =>
      let tcpSeg := ({} : TCPSegment).parse buffer ipDgram.header.pseudoCksum
      if tcpSeg.1 ≠ .noError then (a, .ok none)
      else
        let related := a.checkRelated ipDgram.header tcpSeg.2
        (related.1, .ok related.2)

end TCPOverIPv4Adapter

end Sponge
