import Sponge.Laws.Util.Checksum
import Sponge.Laws.Util.Parser
import Sponge.Net.Ethernet
import Sponge.Net.IPv4
import Sponge.Tcp.Segment

/-!
# Laws.Net.Parsers — what the packet parsers accept

Header parsers report an error in two ways: by the value they return and by the parser's error flag,
which only a missing byte sets. The wrappers `IPv4Datagram.parse`, `TCPSegment.parse` and
`EthernetFrame.parse` look at the flag alone, so a header that is rejected for anything but missing
bytes is accepted by its wrapper. The last part says exactly which packets fare so.
-/

namespace Sponge

open NetParser (Read)

variable {b : Bytes} {p : NetParser}

/-! ## IPv4 -/

/-- The version a packet states. -/
def wireVer (b : Bytes) : Nat := wireInt b 0 1 / 16

/-- The header length a packet states, in words of 32 bits. -/
def wireHlen (b : Bytes) : Nat := wireInt b 0 1 % 16

/-- The total length a packet states. -/
def wireLen (b : Bytes) : Nat := wireInt b 2 2

/-- The time to live a packet states. -/
def wireTtl (b : Bytes) : Nat := wireInt b 8 1

/-- The header is rejected before its options are skipped. -/
def EarlyReject (b : Bytes) : Prop :=
  b.length < 4 * wireHlen b ∨ wireVer b ≠ 4 ∨ wireHlen b < 5 ∨ b.length ≠ wireLen b

namespace IPv4Header

theorem readFields_read (h : Read b 0 p) : Read b 20 (readFields p).2 := by
  unfold readFields
  dsimp only
  exact h.u8.u8.u16.u16.u16.u8.u8.u16.u32.u32

/-- The fields the checks look at, as the packet states them. -/
theorem readFields_fields (h : Read b 0 p) (long : 20 ≤ b.length) :
    (readFields p).1.ver.toNat = wireVer b ∧ (readFields p).1.hlen.toNat = wireHlen b ∧
      (readFields p).1.len.toNat = wireLen b := by
  unfold readFields
  dsimp only
  refine ⟨?_, ?_, h.u8.u8.u16_fst (by omega)⟩
  · rw [UInt8.toNat_shiftRight, h.u8_fst (by omega)]
    exact Nat.shiftRight_eq_div_pow _ 4
  · rw [UInt8.toNat_and, h.u8_fst (by omega)]
    exact Nat.and_two_pow_sub_one_eq_mod _ 4

theorem readFields_ttl (h : Read b 0 p) (long : 20 ≤ b.length) :
    (readFields p).1.ttl.toNat = wireTtl b := by
  unfold readFields
  dsimp only
  exact h.u8.u8.u16.u16.u16.u8_fst (by omega)

/-- What the checks reject before the options, in the fields' own terms. -/
def RejectsEarly (h : IPv4Header) (size : Nat) : Prop :=
  size < 4 * h.hlen.toNat ∨ h.ver.toNat ≠ 4 ∨ h.hlen.toNat < 5 ∨ size ≠ h.len.toNat

/-- An early reject leaves the parser where it was. -/
theorem check_early (h : IPv4Header) {original : Buffer} (early : h.RejectsEarly original.size)
    (p : NetParser) : (h.check original p).1 ≠ .noError ∧ (h.check original p).2 = p := by
  unfold check
  split
  · exact ⟨nofun, rfl⟩
  next hsize =>
    split
    · exact ⟨nofun, rfl⟩
    next hver =>
      split
      · exact ⟨nofun, rfl⟩
      next hhlen =>
        split
        · exact ⟨nofun, rfl⟩
        next hlen =>
          rw [not_not] at hver hlen
          rw [UInt8.lt_iff_toNat_lt] at hhlen
          rcases early with h1 | h2 | h3 | h4
          · exact absurd h1 hsize
          · exact absurd (congrArg UInt8.toNat hver) h2
          · exact absurd h3 hhlen
          · exact absurd hlen h4

/-- Without an early reject the options are skipped, and the checksum decides. -/
theorem check_late (h : IPv4Header) {original : Buffer} (late : ¬ h.RejectsEarly original.size)
    (hread : Read original.str 20 p) :
    Read original.str (4 * h.hlen.toNat) (h.check original p).2 ∧
      ((h.check original p).1 = .noError ↔
        checksum 0 (original.str.take (4 * h.hlen.toNat)) = 0) := by
  simp only [RejectsEarly, not_or, not_not, Nat.not_lt] at late
  obtain ⟨hsize, hver, hhlen, hlen⟩ := late
  have hskip := hread.removePrefix (h.hlen.toNat * 4 - LENGTH)
  rw [show 20 + (h.hlen.toNat * 4 - LENGTH) = 4 * h.hlen.toNat by unfold LENGTH; omega] at hskip
  have herr := hskip.error_eq.mpr hsize
  unfold check
  rw [if_neg (Nat.not_lt_of_le hsize), if_neg (not_not.mpr (UInt8.toNat_inj.mp hver)),
    if_neg (fun hc => Nat.not_lt_of_le hhlen (UInt8.lt_iff_toNat_lt.mp hc)),
    if_neg (not_not.mpr hlen)]
  dsimp only
  rw [if_neg (not_not.mpr herr)]
  split
  next hbad => exact ⟨hskip, ⟨nofun, fun hgood => absurd hgood hbad⟩⟩
  next hgood => exact ⟨hskip, ⟨fun _ => not_not.mp hgood, fun _ => rfl⟩⟩

theorem parse_short (h : IPv4Header) {buffer : Buffer} (short : buffer.str.length < 20) :
    h.parse (NetParser.new buffer) = ((.packetTooShort, h), NetParser.new buffer) :=
  if_pos short

theorem parse_long (h : IPv4Header) {buffer : Buffer} (long : 20 ≤ buffer.str.length) :
    h.parse (NetParser.new buffer) =
      ((((readFields (NetParser.new buffer)).1.check buffer (readFields (NetParser.new buffer)).2).1,
        (readFields (NetParser.new buffer)).1),
        ((readFields (NetParser.new buffer)).1.check buffer (readFields (NetParser.new buffer)).2).2) :=
  if_neg (Nat.not_lt_of_le long)

theorem payloadLength_toNat (h : IPv4Header) :
    h.payloadLength.toNat = (h.len.toNat + (2 ^ 16 - 4 * h.hlen.toNat)) % 2 ^ 16 := by
  have hhlen := h.hlen.toNat_lt
  have hmul : (4 * h.hlen.toUInt16).toNat = 4 * h.hlen.toNat := by
    rw [UInt16.toNat_mul, UInt8.toNat_toUInt16]
    exact Nat.mod_eq_of_lt (by show 4 * _ < _; omega)
  rw [payloadLength, UInt16.toNat_sub, hmul, Nat.add_comm]

end IPv4Header

namespace IPv4Datagram

/-- A datagram is accepted when its payload has the stated length and no byte was missing. -/
theorem parse_noError (d : IPv4Datagram) (buffer : Buffer) :
    (d.parse buffer).1 = .noError ↔
      (d.header.parse (NetParser.new buffer)).2.buffer.str.length =
          (d.header.parse (NetParser.new buffer)).1.2.payloadLength.toNat ∧
        (d.header.parse (NetParser.new buffer)).2.error = .noError := by
  unfold parse
  generalize d.header.parse (NetParser.new buffer) = parsed
  dsimp only
  rw [BufferList.size_ofBuffer]
  split
  next hne => exact ⟨nofun, fun hc => absurd hc.1 hne⟩
  next heq => exact ⟨fun herr => ⟨not_not.mp heq, herr⟩, And.right⟩

/-- What an accepted datagram is like: its payload has the length its header states, and the header's
fields are the packet's. -/
structure Accepted (b : Bytes) (d : IPv4Datagram) : Prop where
  size : d.payload.size = d.header.payloadLength.toNat
  ver : d.header.ver.toNat = wireVer b
  hlen : d.header.hlen.toNat = wireHlen b
  ttl : d.header.ttl.toNat = wireTtl b

/-- A datagram parsed into a fresh object and accepted. A packet too short for a header is not: the
fresh header states a payload of 65516 bytes. -/
theorem parse_accepted {buffer : Buffer} (h : (parse {} buffer).1 = .noError) :
    Accepted buffer.str (parse {} buffer).2 := by
  have hnew := NetParser.read_new buffer
  obtain ⟨hsize, -⟩ := (parse_noError {} buffer).mp h
  have hlong : 20 ≤ buffer.str.length := by
    by_contra hshort
    rw [IPv4Header.parse_short _ (Nat.lt_of_not_le hshort)] at hsize
    have hfresh : ({} : IPv4Header).payloadLength.toNat = 65516 := by decide
    exact hshort (hsize ▸ hfresh ▸ by decide)
  obtain ⟨hver, hhlen, -⟩ := IPv4Header.readFields_fields hnew hlong
  have hheader : (parse {} buffer).2.header = (IPv4Header.readFields (NetParser.new buffer)).1 := by
    unfold parse
    rw [IPv4Header.parse_long _ hlong]
  refine ⟨?_, hheader ▸ hver, hheader ▸ hhlen, hheader ▸ IPv4Header.readFields_ttl hnew hlong⟩
  exact (BufferList.size_ofBuffer _).trans hsize

/-- A datagram is accepted only with an accepted header exactly when: a packet too short for a header
does not have the payload length of the object it is parsed into; a packet whose header is rejected
early does not have as many bytes behind 20 as it states for its payload; and the header checksum of
every other packet is good. -/
theorem parse_iff (d : IPv4Datagram) (buffer : Buffer) :
    ((d.parse buffer).1 = .noError →
        (d.header.parse (NetParser.new buffer)).1.1 = .noError) ↔
      (buffer.str.length < 20 → buffer.str.length ≠ d.header.payloadLength.toNat) ∧
      (20 ≤ buffer.str.length → EarlyReject buffer.str →
        buffer.str.length - 20 ≠
          (wireLen buffer.str + (2 ^ 16 - 4 * wireHlen buffer.str)) % 2 ^ 16) ∧
      (20 ≤ buffer.str.length → ¬ EarlyReject buffer.str →
        checksum 0 (buffer.str.take (4 * wireHlen buffer.str)) = 0) := by
  have hnew := NetParser.read_new buffer
  rw [parse_noError]
  by_cases hshort : buffer.str.length < 20
  · rw [IPv4Header.parse_short _ hshort]
    refine ⟨fun hprop => ⟨fun _ heq => ?_, fun hlong => absurd hshort (Nat.not_lt_of_le hlong),
      fun hlong => absurd hshort (Nat.not_lt_of_le hlong)⟩, fun hcond hacc => ?_⟩
    · cases hprop ⟨heq, rfl⟩
    · exact absurd hacc.1 (hcond.1 hshort)
  · have hlong := Nat.le_of_not_lt hshort
    obtain ⟨hver, hhlen, hlen⟩ := IPv4Header.readFields_fields hnew hlong
    have hread := IPv4Header.readFields_read hnew
    have hreject : (IPv4Header.readFields (NetParser.new buffer)).1.RejectsEarly buffer.size ↔
        EarlyReject buffer.str := by
      rw [IPv4Header.RejectsEarly, hver, hhlen, hlen]
      rfl
    rw [IPv4Header.parse_long _ hlong]
    generalize IPv4Header.readFields (NetParser.new buffer) = fields at *
    dsimp only
    rw [IPv4Header.payloadLength_toNat, hhlen, hlen]
    by_cases hearly : EarlyReject buffer.str
    · obtain ⟨hres, hsame⟩ := IPv4Header.check_early _ (hreject.mpr hearly) fields.2
      obtain ⟨herr, hstr⟩ := hread.within hlong
      rw [hsame, hstr, List.length_drop]
      exact ⟨fun hprop => ⟨fun hc => absurd hc hshort, fun _ _ heq => hres (hprop ⟨heq, herr⟩),
        fun _ hc => absurd hearly hc⟩, fun hcond hacc => absurd hacc.1 (hcond.2.1 hlong hearly)⟩
    · obtain ⟨hskip, hres⟩ := IPv4Header.check_late _ (fun hc => hearly (hreject.mp hc)) hread
      rw [hhlen] at hskip hres
      have hlate : wireLen buffer.str = buffer.str.length ∧
          4 * wireHlen buffer.str ≤ buffer.str.length := by
        unfold EarlyReject at hearly
        omega
      have hbound : wireLen buffer.str < 2 ^ 16 := wireInt_lt buffer.str 2 2
      obtain ⟨herr, hstr⟩ := hskip.within hlate.2
      rw [hres, hstr, List.length_drop]
      exact ⟨fun hprop => ⟨fun hc => absurd hc hshort, fun _ hc => absurd hc hearly,
        fun _ _ => hprop ⟨by omega, herr⟩⟩, fun hcond _ => hcond.2.2 hlong hearly⟩

end IPv4Datagram

/-! ## TCP and Ethernet -/

/-- The data offset a TCP segment states, in words of 32 bits. -/
def wireDoff (b : Bytes) : Nat := wireInt b 12 1 / 16

namespace TCPHeader

theorem readFields_read (h : Read b 0 p) : Read b 20 (readFields p).2 := by
  unfold readFields
  dsimp only
  exact h.u16.u16.u32.u32.u8.u8.u16.u16.u16

theorem readFields_doff (h : Read b 0 p) (long : 20 ≤ b.length) :
    (readFields p).1.doff.toNat = wireDoff b := by
  unfold readFields
  dsimp only
  rw [UInt8.toNat_shiftRight, h.u16.u16.u32.u32.u8_fst (by omega)]
  exact Nat.shiftRight_eq_div_pow _ 4

/-- The header's result and the parser's error disagree exactly on a data offset that is too small,
and the parser has no error there. -/
theorem parse_noError (h : Read b 0 p) :
    ((parse p).1.1 = .noError ↔
      (parse p).2.error = .noError ∧ ¬ (20 ≤ b.length ∧ wireDoff b < 5)) ∧
    (20 ≤ b.length ∧ wireDoff b < 5 → (parse p).2.error = .noError) := by
  have hread := readFields_read h
  have hdoff := readFields_doff h
  unfold parse
  generalize readFields p = fields at *
  dsimp only
  split
  next hless =>
    rw [UInt8.lt_iff_toNat_lt] at hless
    refine ⟨⟨nofun, fun ⟨herr, hok⟩ => ?_⟩, fun ⟨hlong, _⟩ => hread.error_eq.mpr hlong⟩
    have hlong := hread.error_eq.mp herr
    exact absurd ⟨hlong, hdoff hlong ▸ hless⟩ hok
  next hless =>
    have hok : ¬ (20 ≤ b.length ∧ wireDoff b < 5) := fun ⟨hlong, hsmall⟩ =>
      hless (UInt8.lt_iff_toNat_lt.mpr (hdoff hlong ▸ hsmall))
    refine ⟨?_, fun hc => absurd hc hok⟩
    split
    next herr => exact ⟨fun hc => absurd hc herr, fun hc => absurd hc.1 herr⟩
    next herr => exact ⟨fun _ => ⟨not_not.mp herr, hok⟩, fun _ => rfl⟩

end TCPHeader

/-- A segment is accepted only with a good checksum and an accepted header exactly when it is not a
segment of 20 bytes or more with a good checksum and a data offset below 5. -/
theorem TCPSegment.parse_iff (seg : TCPSegment) (buffer : Buffer) (datagramLayerChecksum : UInt32) :
    ((seg.parse buffer datagramLayerChecksum).1 = .noError →
        checksum datagramLayerChecksum buffer.str = 0 ∧
          (TCPHeader.parse (NetParser.new buffer)).1.1 = .noError) ↔
      ¬ (checksum datagramLayerChecksum buffer.str = 0 ∧ 20 ≤ buffer.str.length ∧
        wireDoff buffer.str < 5) := by
  obtain ⟨hres, hquiet⟩ := TCPHeader.parse_noError (NetParser.read_new buffer)
  have hparse : seg.parse buffer datagramLayerChecksum =
      if checksum datagramLayerChecksum buffer.str ≠ 0 then (.badChecksum, seg)
      else ((TCPHeader.parse (NetParser.new buffer)).2.error,
        { header := (TCPHeader.parse (NetParser.new buffer)).1.2
          payload := (TCPHeader.parse (NetParser.new buffer)).2.buffer }) := rfl
  generalize TCPHeader.parse (NetParser.new buffer) = parsed at *
  rw [hparse]
  by_cases hsum : checksum datagramLayerChecksum buffer.str = 0
  · rw [if_neg (not_not.mpr hsum), hres]
    exact ⟨fun hprop hc => (hprop (hquiet hc.2)).2.2 hc.2,
      fun hcond herr => ⟨hsum, herr, fun hc => hcond ⟨hsum, hc⟩⟩⟩
  · rw [if_pos hsum]
    exact ⟨fun _ hc => hsum hc.1, fun _ hc => by cases hc⟩

/-- The header's result is the parser's error, unless the packet is too short for a header, which the
parser does not notice. -/
theorem EthernetHeader.parse_cases (h : EthernetHeader) (p : NetParser) :
    p.buffer.size < LENGTH ∧ h.parse p = ((.packetTooShort, h), p) ∨
      LENGTH ≤ p.buffer.size ∧ (h.parse p).1.1 = (h.parse p).2.error := by
  unfold parse
  split
  next hshort => exact .inl ⟨hshort, rfl⟩
  next hlong =>
    dsimp only
    exact .inr ⟨Nat.le_of_not_lt hlong, rfl⟩

/-- A frame is accepted only with an accepted header exactly when it has the bytes of a header. -/
theorem EthernetFrame.parse_iff (f : EthernetFrame) (buffer : Buffer) :
    ((f.parse buffer).1 = .noError →
        (f.header.parse (NetParser.new buffer)).1.1 = .noError) ↔ 14 ≤ buffer.str.length := by
  have hframe : (f.parse buffer).1 = (f.header.parse (NetParser.new buffer)).2.error := rfl
  rw [hframe]
  rcases f.header.parse_cases (NetParser.new buffer) with ⟨hshort, heq⟩ | ⟨hlong, heq⟩
  · rw [heq]
    exact ⟨fun hprop => (nomatch hprop rfl), fun hlong => absurd hshort (Nat.not_lt_of_le hlong)⟩
  · rw [heq]
    exact ⟨fun _ => hlong, fun _ => id⟩

/-- **What the wrappers accept.** For every packet, each wrapper rejects what its header parser rejects
exactly under the condition on the right. -/
theorem accepts_iff (d : IPv4Datagram) (seg : TCPSegment) (f : EthernetFrame) (buffer : Buffer)
    (datagramLayerChecksum : UInt32) :
    (((d.parse buffer).1 = .noError →
        (d.header.parse (NetParser.new buffer)).1.1 = .noError) ↔
      (buffer.str.length < 20 → buffer.str.length ≠ d.header.payloadLength.toNat) ∧
      (20 ≤ buffer.str.length → EarlyReject buffer.str →
        buffer.str.length - 20 ≠
          (wireLen buffer.str + (2 ^ 16 - 4 * wireHlen buffer.str)) % 2 ^ 16) ∧
      (20 ≤ buffer.str.length → ¬ EarlyReject buffer.str →
        checksum 0 (buffer.str.take (4 * wireHlen buffer.str)) = 0)) ∧
    (((seg.parse buffer datagramLayerChecksum).1 = .noError →
        checksum datagramLayerChecksum buffer.str = 0 ∧
          (TCPHeader.parse (NetParser.new buffer)).1.1 = .noError) ↔
      ¬ (checksum datagramLayerChecksum buffer.str = 0 ∧ 20 ≤ buffer.str.length ∧
        wireDoff buffer.str < 5)) ∧
    (((f.parse buffer).1 = .noError →
        (f.header.parse (NetParser.new buffer)).1.1 = .noError) ↔ 14 ≤ buffer.str.length) :=
  ⟨d.parse_iff buffer, seg.parse_iff buffer datagramLayerChecksum, f.parse_iff buffer⟩

/-- **Each wrapper accepts a packet whose header is rejected**: a datagram of version 5, a segment of
zeros under a pseudo-header sum that makes its checksum good, and an empty frame. -/
theorem accepts_malformed :
    let datagram := Buffer.ofString ([0x55, 0, 0, 20] ++ List.replicate 16 0)
    let segment := Buffer.ofString (List.replicate 20 0)
    let frame := Buffer.ofString []
    ((({} : IPv4Datagram).parse datagram).1 = .noError ∧
      (({} : IPv4Header).parse (NetParser.new datagram)).1.1 = .wrongIPVersion) ∧
    ((({} : TCPSegment).parse segment 0xffff).1 = .noError ∧
      (TCPHeader.parse (NetParser.new segment)).1.1 = .headerTooShort) ∧
    (({} : EthernetFrame).parse frame).1 = .noError ∧
      (({} : EthernetHeader).parse (NetParser.new frame)).1.1 = .packetTooShort := by
  decide

end Sponge
