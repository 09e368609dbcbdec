import Sponge.Laws.Net.Codec
import Sponge.Laws.Net.Parsers
import Sponge.Net.Adapter

/-!
# Laws.Net.Adapter — a segment through the stack

What one adapter wraps, its mirror image unwraps: the segment crosses two serializers and two parsers
with two checksums, and the far side finds the ports and every other field as they were. A listening
adapter becomes the mirror image by the first SYN. What is not for the adapter leaves no trace.

Whether a datagram is for the adapter is asked of its bytes (`Misaddressed`, `WrongPort`), not of what
the parser made of them.
-/

namespace Sponge

open NetParser (Read)

/-- The source port a TCP segment states. -/
def wireSport (b : Bytes) : Nat := wireInt b 0 2

/-- The destination port a TCP segment states. -/
def wireDport (b : Bytes) : Nat := wireInt b 2 2

namespace TCPHeader

variable {b : Bytes} {p : NetParser}

theorem parse_header (p : NetParser) : (parse p).1.2 = (readFields p).1 := by
  unfold parse
  dsimp only
  split
  · rfl
  · split <;> rfl

/-- Without an error the parser has seen the fields. -/
theorem long_of_parse (h : Read b 0 p) (good : (parse p).2.error = .noError) : 20 ≤ b.length := by
  have hread := readFields_read h
  unfold parse at good
  generalize readFields p = fields at *
  dsimp only at good
  split at good
  · exact hread.error_eq.mp good
  · split at good
    next herr => exact absurd good herr
    next => exact Nat.le_trans (Nat.le_add_right _ _) ((hread.removePrefix _).error_eq.mp good)

theorem readFields_ports (h : Read b 0 p) (long : 20 ≤ b.length) :
    (readFields p).1.sport.toNat = wireSport b ∧ (readFields p).1.dport.toNat = wireDport b := by
  unfold readFields
  dsimp only
  exact ⟨h.u16_fst (by omega), h.u16.u16_fst (by omega)⟩

end TCPHeader

namespace TCPSegment

/-- A segment that parses has the ports its bytes state. -/
theorem parse_ports {seg : TCPSegment} {buffer : Buffer} {datagramLayerChecksum : UInt32}
    (good : (seg.parse buffer datagramLayerChecksum).1 = .noError) :
    (seg.parse buffer datagramLayerChecksum).2.header.sport.toNat = wireSport buffer.str ∧
      (seg.parse buffer datagramLayerChecksum).2.header.dport.toNat = wireDport buffer.str := by
  have hread := NetParser.read_new buffer
  unfold parse at good ⊢
  dsimp only at good ⊢
  split at good
  · cases good
  · next hsum =>
    rw [if_neg hsum, TCPHeader.parse_header]
    exact TCPHeader.readFields_ports hread (TCPHeader.long_of_parse hread good)

/-- The same segment, up to its checksum and to how its payload is stored. -/
def SameButCksum (got seg : TCPSegment) : Prop :=
  ∃ cksum, got.header = seg.header.sealWith cksum ∧ got.payload.str = seg.payload.str

end TCPSegment

/-- The configuration of the other end. -/
def FdAdapterConfig.mirror (cfg : FdAdapterConfig) : FdAdapterConfig :=
  { source := cfg.destination, destination := cfg.source }

/-- The pseudo-header's sum is far from overflowing. -/
theorem IPv4Header.pseudoCksum_lt (h : IPv4Header) : h.pseudoCksum.toNat < 2 ^ 20 := by
  have hlow (x : UInt32) : (x &&& (0xffff : UInt32)).toNat < 2 ^ 16 := by
    rw [UInt32.toNat_and]
    exact Nat.lt_of_le_of_lt Nat.and_le_right (by decide)
  have hhigh (x : UInt32) : (x >>> 16).toNat < 2 ^ 16 := by
    have hx := x.toNat_lt
    rw [UInt32.toNat_shiftRight, show (16 : UInt32).toNat % 32 = 16 from rfl, Nat.shiftRight_eq_div_pow]
    omega
  have hproto := h.proto.toNat_lt
  have hlength := h.payloadLength.toNat_lt
  have hsrc := hlow h.src
  have hsrc' := hhigh h.src
  have hdst := hlow h.dst
  have hdst' := hhigh h.dst
  unfold pseudoCksum
  simp only [UInt32.toNat_add, UInt8.toNat_toUInt32, UInt16.toNat_toUInt32]
  omega

namespace TCPOverIPv4Adapter

variable {a : TCPOverIPv4Adapter} {d : IPv4Datagram}

/-- The IPv4 header says that the datagram is not for this adapter. -/
def Misaddressed (a : TCPOverIPv4Adapter) (d : IPv4Datagram) : Prop :=
  d.header.proto ≠ IPv4Header.PROTO_TCP ∨
    ¬a.listen ∧ (d.header.dst ≠ a.cfg.source.ipv4Numeric ∨
      d.header.src ≠ a.cfg.destination.ipv4Numeric)

/-- The ports in the payload say that the datagram is not for this adapter. -/
def WrongPort (a : TCPOverIPv4Adapter) (d : IPv4Datagram) : Prop :=
  wireDport d.payload.concatenate ≠ a.cfg.source.port.toNat ∨
    ¬a.listen ∧ wireSport d.payload.concatenate ≠ a.cfg.destination.port.toNat

theorem not_misaddressed {b : TCPOverIPv4Adapter} (proto : d.header.proto = IPv4Header.PROTO_TCP)
    (addresses : ¬b.listen → d.header.dst = b.cfg.source.ipv4Numeric ∧
      d.header.src = b.cfg.destination.ipv4Numeric) : ¬b.Misaddressed d := by
  rintro (hproto | ⟨hquiet, hdst | hsrc⟩)
  · exact hproto proto
  · exact hdst (addresses hquiet).1
  · exact hsrc (addresses hquiet).2

/-- The three checks on the IPv4 header. -/
theorem unwrap_misaddressed (h : a.Misaddressed d) : a.unwrapTcpInIp d = (a, .ok none) := by
  unfold unwrapTcpInIp
  split
  · rfl
  next hdst =>
    split
    · rfl
    next hsrc =>
      obtain hproto | ⟨hlisten, haddress | haddress⟩ := h
      · rw [if_pos hproto]
      · exact absurd ⟨hlisten, haddress⟩ hdst
      · exact absurd ⟨hlisten, haddress⟩ hsrc

/-- Behind them the payload decides. -/
theorem unwrap_addressed (h : ¬a.Misaddressed d) :
    a.unwrapTcpInIp d =
      match d.payload.toBuffer with
      | .error e => (a, .error e)
      | .ok buffer =>
        let tcpSeg := ({} : TCPSegment).parse buffer d.header.pseudoCksum
        if tcpSeg.1 ≠ .noError then (a, .ok none)
        else ((a.checkRelated d.header tcpSeg.2).1, .ok (a.checkRelated d.header tcpSeg.2).2) := by
  unfold Misaddressed at h
  push Not at h
  obtain ⟨hproto, haddress⟩ := h
  unfold unwrapTcpInIp
  rw [if_neg (fun hc => hc.2 (haddress hc.1).1), if_neg (fun hc => hc.2 (haddress hc.1).2)]
  exact if_neg (not_not.mpr hproto)

/-- A payload of at most one buffer is read as the bytes it has. -/
theorem toBuffer_of_length_le {l : BufferList} (one : l.buffers.length ≤ 1) :
    ∃ buffer, l.toBuffer = .ok buffer ∧ buffer.str = l.concatenate := by
  obtain ⟨buffers⟩ := l
  match buffers, one with
  | [], _ => exact ⟨_, rfl, rfl⟩
  | [b], _ => exact ⟨b, rfl, by simp [BufferList.concatenate]⟩

/-- A payload of several buffers is not read. -/
theorem toBuffer_of_lt_length {l : BufferList} (several : 1 < l.buffers.length) :
    ∃ e, l.toBuffer = .error e := by
  obtain ⟨buffers⟩ := l
  match buffers, several with
  | _ :: _ :: _, _ => exact ⟨_, rfl⟩

/-- A segment with a wrong port is not admitted. -/
theorem checkRelated_wrongPort {header : IPv4Header} {seg : TCPSegment}
    (h : seg.header.dport ≠ a.cfg.source.port ∨
      ¬a.listen ∧ seg.header.sport ≠ a.cfg.destination.port) : a.checkRelated header seg = (a, none) := by
  unfold checkRelated
  split
  · rfl
  next hdport =>
    obtain hwrong | ⟨hlisten, hsport⟩ := h
    · exact absurd hwrong hdport
    · rw [if_neg (fun hc => hlisten hc.1)]
      dsimp only
      rw [if_neg hlisten, if_pos hsport]

/-- The two checks on the ports, asked of the bytes. -/
theorem unwrap_wrongPort (one : d.payload.buffers.length ≤ 1) (h : a.WrongPort d) :
    a.unwrapTcpInIp d = (a, .ok none) := by
  by_cases haddressed : a.Misaddressed d
  · exact unwrap_misaddressed haddressed
  obtain ⟨buffer, hbuffer, hstr⟩ := toBuffer_of_length_le one
  rw [unwrap_addressed haddressed, hbuffer]
  dsimp only
  split
  · rfl
  next hgood =>
    obtain ⟨hsport, hdport⟩ := TCPSegment.parse_ports (not_not.mp hgood)
    rw [hstr] at hsport hdport
    have hwrong : _ ∨ _ := h.imp (fun hne heq => hne (hdport ▸ congrArg UInt16.toNat heq))
      (And.imp_right fun hne heq => hne (hsport ▸ congrArg UInt16.toNat heq))
    rw [checkRelated_wrongPort hwrong]

/-! ## The way through the stack -/

section Crossing

variable {seg : TCPSegment} (doff : 5 ≤ seg.header.doff.toNat ∧ seg.header.doff.toNat ≤ 15)
  (size : 20 + 4 * seg.header.doff.toNat + seg.payload.size ≤ 65535)

include size in
/-- The length field holds the length. -/
theorem ipHeader_len (a : TCPOverIPv4Adapter) : (a.ipHeader (a.setPorts seg)).len.toNat =
    20 + (4 * seg.header.doff.toNat + seg.payload.size) := by
  show ((5 * 4 + seg.header.doff.toNat * 4 + seg.payload.size).toUInt16).toNat = _
  rw [Nat.toUInt16_eq, UInt16.toNat_ofNat', Nat.mod_eq_of_lt (by omega)]
  omega

include doff size in
/-- What is wrapped and sent arrives as a datagram whose payload parses to the segment. -/
theorem crossing (a : TCPOverIPv4Adapter) :
    ∃ d wire, a.wrapTcpInIp seg = (a.setPorts seg, .ok d) ∧ d.serialize = .ok wire ∧
      ∀ (old : IPv4Datagram) (buffer : Buffer), buffer.str = wire.concatenate →
        ∃ cksum payload got,
          old.parse buffer = (.noError,
            { header := (a.ipHeader (a.setPorts seg)).sealWith cksum
              payload := BufferList.ofBuffer payload }) ∧
          ({} : TCPSegment).parse payload (a.ipHeader (a.setPorts seg)).pseudoCksum =
            (.noError, got) ∧
          got.SameButCksum (a.setPorts seg) := by
  have hlen := ipHeader_len size a
  have hpseudo := (a.ipHeader (a.setPorts seg)).pseudoCksum_lt
  have hfits : (a.setPorts seg).header.Fits := ⟨doff.1, Nat.lt_succ_of_le doff.2⟩
  have hsize : seg.payload.size = (a.setPorts seg).payload.str.length := rfl
  have hdoff : (a.setPorts seg).header.doff = seg.header.doff := rfl
  have hbelow : (a.ipHeader (a.setPorts seg)).pseudoCksum.toNat +
      65280 * (4 * (a.setPorts seg).header.doff.toNat + (a.setPorts seg).payload.str.length) < 2 ^ 32 := by
    rw [hdoff, ← hsize]
    omega
  obtain ⟨cksum, payload, hpayload, hlong, hsegment⟩ := TCPSegment.parse_serialize hfits hbelow
  have hip : (a.ipHeader (a.setPorts seg)).Fits :=
    ⟨rfl, show 5 ≤ (5 : UInt8).toNat ∧ (5 : UInt8).toNat < 16 by decide,
      show (0 : UInt16).toNat < 2 ^ 13 by decide⟩
  obtain ⟨ipCksum, wire, hwire, hdatagram⟩ := IPv4Datagram.parse_serialize
    (d := { header := a.ipHeader (a.setPorts seg), payload }) hip (by
      show 4 * 5 + payload.size = _
      rw [hlong, hdoff, hlen, hsize])
  refine ⟨_, wire, ?_, hwire, fun old buffer hstr => ?_⟩
  · unfold wrapTcpInIp
    dsimp only
    rw [hpayload]
    rfl
  obtain ⟨-, arrived, harrived, hparse⟩ := hdatagram old buffer hstr
  obtain ⟨rest, hrest, hgot⟩ := hsegment {} arrived harrived
  exact ⟨ipCksum, arrived, _, hparse, hgot, cksum, rfl, hrest⟩

end Crossing

/-- A datagram whose one buffer parses to a segment goes to the last checks. -/
theorem unwrap_parsed {header : IPv4Header} {payload : Buffer} {got : TCPSegment}
    (addressed : ¬a.Misaddressed { header, payload := BufferList.ofBuffer payload })
    (parsed : ({} : TCPSegment).parse payload header.pseudoCksum = (.noError, got)) :
    a.unwrapTcpInIp { header, payload := BufferList.ofBuffer payload } =
      ((a.checkRelated header got).1, .ok (a.checkRelated header got).2) := by
  rw [unwrap_addressed addressed]
  show (if (({} : TCPSegment).parse payload header.pseudoCksum).1 ≠ .noError then _ else _) = _
  rw [parsed, if_neg (not_not.mpr rfl)]

/-- The mirror image admits what carries the ports of this side. -/
theorem checkRelated_mirror {header : IPv4Header} {got : TCPSegment} {b : TCPOverIPv4Adapter}
    (quiet : ¬b.listen) (mirrors : b.cfg = a.cfg.mirror)
    (sport : got.header.sport = a.cfg.source.port) (dport : got.header.dport = a.cfg.destination.port) :
    b.checkRelated header got = (b, some got) := by
  have hsource : b.cfg.source = a.cfg.destination := congrArg FdAdapterConfig.source mirrors
  have hdestination : b.cfg.destination = a.cfg.source := congrArg FdAdapterConfig.destination mirrors
  unfold checkRelated
  rw [hsource, if_neg (not_not.mpr dport), if_neg (fun hc => quiet hc.1)]
  dsimp only
  rw [if_neg quiet, hdestination, if_neg (not_not.mpr sport)]

/-- A listening adapter admits a SYN without RST, and becomes the mirror image. -/
theorem checkRelated_listening {got : TCPSegment} {b : TCPOverIPv4Adapter} {header : IPv4Header}
    (listening : b.listen) (port : b.cfg.source.port = a.cfg.destination.port)
    (src : header.src = a.cfg.source.ipv4Numeric) (dst : header.dst = a.cfg.destination.ipv4Numeric)
    (sport : got.header.sport = a.cfg.source.port) (dport : got.header.dport = a.cfg.destination.port) :
    b.checkRelated header got =
      if got.header.syn ∧ ¬got.header.rst then ({ cfg := a.cfg.mirror, listen := false }, some got)
      else (b, none) := by
  unfold checkRelated
  rw [port, if_neg (not_not.mpr dport)]
  by_cases hsyn : got.header.syn ∧ ¬got.header.rst
  · rw [if_neg (fun hc => hc.2 hsyn), if_pos hsyn, if_pos listening]
    have haccept : b.accept header got = { cfg := a.cfg.mirror, listen := false } := by
      rw [accept, port, src, dst, sport]
      rfl
    rw [haccept]
    exact if_neg (not_not.mpr sport)
  · rw [if_pos ⟨listening, hsyn⟩, if_neg hsyn]

/-- What the other end makes of a segment that arrives from this side. -/
theorem unwrap_crossed {header : IPv4Header} {payload : Buffer} {got : TCPSegment}
    (proto : header.proto = IPv4Header.PROTO_TCP) (src : header.src = a.cfg.source.ipv4Numeric)
    (dst : header.dst = a.cfg.destination.ipv4Numeric)
    (parsed : ({} : TCPSegment).parse payload header.pseudoCksum = (.noError, got))
    (sport : got.header.sport = a.cfg.source.port) (dport : got.header.dport = a.cfg.destination.port)
    (b : TCPOverIPv4Adapter) :
    (¬b.listen → b.cfg = a.cfg.mirror →
      b.unwrapTcpInIp { header, payload := BufferList.ofBuffer payload } = (b, .ok (some got))) ∧
    (b.listen → b.cfg.source.port = a.cfg.destination.port →
      b.unwrapTcpInIp { header, payload := BufferList.ofBuffer payload } =
        if got.header.syn ∧ ¬got.header.rst then
          ({ cfg := a.cfg.mirror, listen := false }, .ok (some got))
        else (b, .ok none)) := by
  refine ⟨fun quiet mirrors => ?_, fun listening port => ?_⟩
  · have haddressed := not_misaddressed (d := { header, payload := BufferList.ofBuffer payload }) proto
      fun _ : ¬b.listen => (by rw [mirrors]; exact ⟨dst, src⟩)
    rw [unwrap_parsed haddressed parsed, checkRelated_mirror quiet mirrors sport dport]
  · have haddressed := not_misaddressed (d := { header, payload := BufferList.ofBuffer payload }) proto
      fun quiet : ¬b.listen => absurd listening quiet
    rw [unwrap_parsed haddressed parsed, checkRelated_listening listening port src dst sport dport]
    split <;> rfl

/-- **A segment crosses the stack.** What an adapter wraps is serialized, and whoever parses those
bytes holds a datagram that the mirror image unwraps to the segment, with its ports filled in. A
listening adapter with the right port unwraps it exactly when it is a SYN without RST, and is the
mirror image from then on. Beside that, a datagram with a wrong protocol or wrong addresses is dropped
without a trace, and so is one in one buffer with a wrong port. A payload of several buffers, which no
parser builds, is refused by an exception. -/
theorem encapsulation_exact :
    (∀ (a : TCPOverIPv4Adapter) (seg : TCPSegment),
      5 ≤ seg.header.doff.toNat ∧ seg.header.doff.toNat ≤ 15 →
      20 + 4 * seg.header.doff.toNat + seg.payload.size ≤ 65535 →
      ∃ d wire, a.wrapTcpInIp seg = (a.setPorts seg, .ok d) ∧ d.serialize = .ok wire ∧
        ∀ (old : IPv4Datagram) (buffer : Buffer), buffer.str = wire.concatenate →
          ∃ arrived got, old.parse buffer = (.noError, arrived) ∧
            got.SameButCksum (a.setPorts seg) ∧
            ∀ b : TCPOverIPv4Adapter,
              (¬b.listen → b.cfg = a.cfg.mirror → b.unwrapTcpInIp arrived = (b, .ok (some got))) ∧
              (b.listen → b.cfg.source.port = a.cfg.destination.port →
                b.unwrapTcpInIp arrived =
                  if seg.header.syn ∧ ¬seg.header.rst then
                    ({ cfg := a.cfg.mirror, listen := false }, .ok (some got))
                  else (b, .ok none))) ∧
    ∀ (b : TCPOverIPv4Adapter) (d : IPv4Datagram),
      (b.Misaddressed d → b.unwrapTcpInIp d = (b, .ok none)) ∧
      (d.payload.buffers.length ≤ 1 → b.WrongPort d → b.unwrapTcpInIp d = (b, .ok none)) ∧
      (¬b.Misaddressed d → 1 < d.payload.buffers.length →
        ∃ e, b.unwrapTcpInIp d = (b, .error e)) := by
  refine ⟨fun a seg doff size => ?_, fun b d => ⟨unwrap_misaddressed, unwrap_wrongPort, ?_⟩⟩
  · obtain ⟨d, wire, hwrap, hwire, hcross⟩ := crossing doff size a
    refine ⟨d, wire, hwrap, hwire, fun old buffer hstr => ?_⟩
    obtain ⟨cksum, payload, got, hparse, hgot, hsame⟩ := hcross old buffer hstr
    refine ⟨_, got, hparse, hsame, fun b => ?_⟩
    obtain ⟨sealed, hheader, -⟩ := hsame
    have hsport : got.header.sport = a.cfg.source.port := by rw [hheader]; rfl
    have hdport : got.header.dport = a.cfg.destination.port := by rw [hheader]; rfl
    have hsyn : got.header.syn = seg.header.syn := by rw [hheader]; rfl
    have hrst : got.header.rst = seg.header.rst := by rw [hheader]; rfl
    rw [← hsyn, ← hrst]
    exact unwrap_crossed rfl rfl rfl hgot hsport hdport b
  · intro addressed several
    obtain ⟨e, he⟩ := toBuffer_of_lt_length several
    exact ⟨e, by rw [unwrap_addressed addressed, he]⟩

/-- A SYN of one byte crosses to a listening adapter that was bound to any address. -/
theorem encapsulation_exact_syn :
    ∃ d wire, (TCPOverIPv4Adapter.mk ⟨⟨2, 90⟩, ⟨1, 80⟩⟩ false).wrapTcpInIp
        { header := { syn := true }, payload := Buffer.ofString [104] } =
          ((TCPOverIPv4Adapter.mk ⟨⟨2, 90⟩, ⟨1, 80⟩⟩ false).setPorts
            { header := { syn := true }, payload := Buffer.ofString [104] }, .ok d) ∧
      d.serialize = .ok wire ∧
      ∃ arrived got, ({} : IPv4Datagram).parse (Buffer.ofString wire.concatenate) = (.noError, arrived) ∧
        (TCPOverIPv4Adapter.mk ⟨⟨0, 80⟩, {}⟩ true).unwrapTcpInIp arrived =
          (TCPOverIPv4Adapter.mk ⟨⟨1, 80⟩, ⟨2, 90⟩⟩ false, .ok (some got)) := by
  obtain ⟨d, wire, hwrap, hwire, hcross⟩ := encapsulation_exact.1
    (TCPOverIPv4Adapter.mk ⟨⟨2, 90⟩, ⟨1, 80⟩⟩ false)
    { header := { syn := true }, payload := Buffer.ofString [104] } (by decide) (by decide)
  obtain ⟨arrived, got, hparse, -, hunwrap⟩ := hcross {} (Buffer.ofString wire.concatenate)
    (Buffer.str_ofString _)
  exact ⟨d, wire, hwrap, hwire, arrived, got, hparse,
    (hunwrap (TCPOverIPv4Adapter.mk ⟨⟨0, 80⟩, {}⟩ true)).2 rfl rfl⟩

/-- A datagram that was wrapped and not sent has two buffers: with a wrong destination port it is not
dropped but refused by an exception. -/
theorem unsent_wrong_port_throws :
    ∃ d, ((TCPOverIPv4Adapter.mk ⟨⟨2, 90⟩, ⟨1, 81⟩⟩ false).wrapTcpInIp
        { payload := Buffer.ofString [104] }).2 = .ok d ∧
      (TCPOverIPv4Adapter.mk ⟨⟨1, 80⟩, ⟨2, 90⟩⟩ false).WrongPort d ∧
      (TCPOverIPv4Adapter.mk ⟨⟨1, 80⟩, ⟨2, 90⟩⟩ false).unwrapTcpInIp d ≠
        (TCPOverIPv4Adapter.mk ⟨⟨1, 80⟩, ⟨2, 90⟩⟩ false, .ok none) := by
  refine ⟨{
    header := { len := 41, src := 2, dst := 1 }
    payload := ⟨[Buffer.ofString [0, 90, 0, 81, 0, 0, 0, 0, 0, 0, 0, 0, 80, 0, 0, 0, 71, 54, 0, 0],
      Buffer.ofString [104]]⟩ }, ?_, ?_, ?_⟩
  · decide +kernel
  · exact .inl (by decide)
  · decide +kernel

end TCPOverIPv4Adapter

end Sponge
