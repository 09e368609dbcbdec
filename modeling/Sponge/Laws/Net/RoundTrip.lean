import Mathlib.Data.Nat.Bitwise
import Sponge.Laws.Net.Codec

/-!
# Laws.Net.RoundTrip — datagrams and segments survive both directions

`Laws.Net.Codec` reads back what was written. Here the other direction joins it: the fields a reader
takes from a packet without options are written as the bytes they were taken from
(`IPv4Header.wireFields_readFields`, `TCPHeader.wireFields_readFields`), as long as the bits no field
keeps are zero. Only the checksum is made anew, so a packet that is read and written again differs in
those two bytes at most (`SameBut`).
-/

namespace Sponge

open NetParser (Before)

variable {p : NetParser} {b : Bytes}

/-- Strings of one length that agree everywhere but in the two bytes at `k`. -/
structure SameBut (k : Nat) (left right : Bytes) : Prop where
  length : left.length = right.length
  byte : ∀ i, i ≠ k → i ≠ k + 1 → left[i]? = right[i]?

/-- A packet may differ in the word behind a front. -/
theorem sameBut_word {front : Bytes} {k : Nat} (len : front.length = k) (left right : UInt16)
    (back : Bytes) : SameBut k (front ++ NetUnparser.u16 left ++ back)
      (front ++ NetUnparser.u16 right ++ back) := by
  have hword : ∀ val, (NetUnparser.u16 val).length = 2 := fun _ => rfl
  refine ⟨by simp [hword], ?_⟩
  intro i hfirst hsecond
  rcases Nat.lt_or_ge i k with hfront | hback
  · simp [List.getElem?_append, len, hfront]
  · have hbehind : ¬ i - k < 2 := by omega
    simp [List.getElem?_append, hword, len, Nat.not_lt_of_le hback, hbehind]

/-- A string of the wanted length is left as it is. -/
theorem resize_exact {s : Bytes} {n : Nat} (len : s.length = n) : resize s n = s := by
  simp [resize, ← len]

/-! ## Bit fields -/

/-- A byte is put together again: from its halves, from its high half if the low one is zero, and from
its six low bits if the others are zero. -/
theorem UInt8.of_parts (byte : UInt8) :
    ((byte >>> 4) <<< 4) ||| ((byte &&& 0x0f) &&& 0xf) = byte ∧
      (byte.toNat % 16 = 0 → (byte >>> 4) <<< 4 = byte) ∧
      (byte.toNat / 64 = 0 →
        (if decide (byte &&& 0b00100000 ≠ 0) then 0b00100000 else 0) |||
          (if decide (byte &&& 0b00010000 ≠ 0) then 0b00010000 else 0) |||
          (if decide (byte &&& 0b00001000 ≠ 0) then 0b00001000 else 0) |||
          (if decide (byte &&& 0b00000100 ≠ 0) then 0b00000100 else 0) |||
          (if decide (byte &&& 0b00000010 ≠ 0) then 0b00000010 else 0) |||
          (if decide (byte &&& 0b00000001 ≠ 0) then 0b00000001 else 0) = byte) := by
  revert byte
  apply UInt8.forall_of_fin
  decide +kernel

/-- A word masked with one bit is that bit or zero. -/
theorem UInt16.mask_bit (word mask : UInt16) {i : Nat} (bit : mask.toNat = 2 ^ i) :
    (if decide (word &&& mask ≠ 0) then mask else 0) = word &&& mask := by
  have hcases : word &&& mask = 0 ∨ word &&& mask = mask := by
    rcases hbit : word.toNat.testBit i with _ | _
    · left
      apply UInt16.toNat_inj.mp
      simp [UInt16.toNat_and, bit, Nat.and_two_pow, hbit]
    · right
      apply UInt16.toNat_inj.mp
      simp [UInt16.toNat_and, bit, Nat.and_two_pow, hbit]
  rcases hcases with hnone | hbit
  · simp [hnone]
  · by_cases hzero : mask = 0
    · simp [hzero]
    · simp [hbit, hzero]

theorem UInt16.and_or_distrib (a b c : UInt16) : a &&& (b ||| c) = (a &&& b) ||| (a &&& c) := by
  apply UInt16.toNat_inj.mp
  simp only [UInt16.toNat_and, UInt16.toNat_or, Nat.and_or_distrib_left]

/-- The word of flags and offset is put together again, if the bit no field keeps is zero. -/
theorem foVal_join {foVal : UInt16} (reserved : foVal.toNat / 2 ^ 15 = 0) :
    (if decide (foVal &&& 0x4000 ≠ 0) then 0x4000 else 0) |||
      (if decide (foVal &&& 0x2000 ≠ 0) then 0x2000 else 0) |||
      ((foVal &&& 0x1fff) &&& 0x1fff) = foVal := by
  rw [UInt16.mask_bit foVal 0x4000 (i := 14) rfl, UInt16.mask_bit foVal 0x2000 (i := 13) rfl,
    UInt16.and_assoc, UInt16.and_self, ← UInt16.and_or_distrib, ← UInt16.and_or_distrib]
  apply UInt16.toNat_inj.mp
  rw [UInt16.toNat_and]
  exact (Nat.and_two_pow_sub_one_eq_mod _ 15).trans (Nat.mod_eq_of_lt (by omega))

/-! ## IPv4 -/

/-- The flag of a packet that no field of an IPv4 header keeps. -/
def wireReservedFlag (b : Bytes) : Nat := wireInt b 6 2 / 2 ^ 15

namespace IPv4Header

/-- **The fields that were read are written as the bytes they were read from.** -/
theorem wireFields_readFields (before : p.Before b) (long : 20 ≤ b.length)
    (reserved : wireReservedFlag b = 0) : ∃ rest, b = (readFields p).1.wireFields ++ rest := by
  have hfoVal := before.read.u8.u8.u16.u16.u16_fst (by omega)
  rw [wireReservedFlag, ← hfoVal] at reserved
  obtain ⟨rest, rfl, hlen, before⟩ := before.takes_u8 (by omega)
  obtain ⟨rest, rfl, hlen, before⟩ := before.takes_u8 (by omega)
  obtain ⟨rest, rfl, hlen, before⟩ := before.takes_u16 (by omega)
  obtain ⟨rest, rfl, hlen, before⟩ := before.takes_u16 (by omega)
  obtain ⟨rest, rfl, hlen, before⟩ := before.takes_u16 (by omega)
  obtain ⟨rest, rfl, hlen, before⟩ := before.takes_u8 (by omega)
  obtain ⟨rest, rfl, hlen, before⟩ := before.takes_u8 (by omega)
  obtain ⟨rest, rfl, hlen, before⟩ := before.takes_u16 (by omega)
  obtain ⟨rest, rfl, hlen, before⟩ := before.takes_u32 (by omega)
  obtain ⟨rest, rfl, hlen, before⟩ := before.takes_u32 (by omega)
  refine ⟨rest, ?_⟩
  unfold readFields wireFields
  dsimp only
  rw [foVal_join reserved, (UInt8.of_parts _).1]
  simp only [List.append_assoc]

theorem readFields_offset (p : NetParser) : (readFields p).1.offset.toNat < 2 ^ 13 := by
  unfold readFields
  dsimp only
  rw [UInt16.toNat_and]
  exact Nat.lt_of_le_of_lt Nat.and_le_right (by decide)

/-- Two headers that differ in their checksum are written with the checksum's two bytes apart. -/
theorem sameBut_wireFields (h : IPv4Header) (cksum : UInt16) (payload : Bytes) :
    SameBut 10 ((h.sealWith cksum).wireFields ++ payload) (h.wireFields ++ payload) := by
  obtain ⟨front, back, hfront, -, hsplit⟩ := h.wireFields_split
  have hself : h.wireFields = front ++ NetUnparser.u16 h.cksum ++ back := hsplit h.cksum
  rw [hsplit, hself, List.append_assoc, List.append_assoc _ back]
  exact sameBut_word hfront _ _ _

/-- What an accepted header is: the fields of the packet, which passed the checks, with the parser left
behind the options. -/
theorem parse_accepted (old : IPv4Header) {buffer : Buffer}
    (accepted : (old.parse (NetParser.new buffer)).1.1 = .noError) :
    let header := (readFields (NetParser.new buffer)).1
    20 ≤ buffer.str.length ∧ (old.parse (NetParser.new buffer)).1.2 = header ∧
      ¬ header.RejectsEarly buffer.size ∧
      (old.parse (NetParser.new buffer)).2.Before (buffer.str.drop (4 * header.hlen.toNat)) := by
  have hlong : 20 ≤ buffer.str.length := by
    by_contra hshort
    rw [parse_short _ (Nat.lt_of_not_le hshort)] at accepted
    cases accepted
  have hread := readFields_read (NetParser.read_new buffer)
  rw [parse_long _ hlong] at accepted ⊢
  generalize readFields (NetParser.new buffer) = fields at *
  intro header
  have hlate : ¬ header.RejectsEarly buffer.size := fun hearly =>
    (header.check_early hearly fields.2).1 accepted
  obtain ⟨hskip, -⟩ := header.check_late hlate hread
  have hsize : 4 * header.hlen.toNat ≤ buffer.str.length :=
    Nat.le_of_not_lt fun hc => hlate (.inl hc)
  obtain ⟨herr, hstr⟩ := hskip.within hsize
  exact ⟨hlong, rfl, hlate, herr, hstr⟩

end IPv4Header

namespace IPv4Datagram

/-- **A packet without options whose header is accepted is written again as it was**, but for its
checksum. -/
theorem serialize_parse (old : IPv4Datagram) {buffer : Buffer}
    (accepted : (old.header.parse (NetParser.new buffer)).1.1 = .noError)
    (hlen : wireHlen buffer.str = 5) (reserved : wireReservedFlag buffer.str = 0) :
    (old.parse buffer).1 = .noError ∧
      ∃ wire, (old.parse buffer).2.serialize = .ok wire ∧
        SameBut 10 wire.concatenate buffer.str := by
  obtain ⟨hlong, hheader, hlate, hbefore⟩ := old.header.parse_accepted accepted
  obtain ⟨-, hhlen, -⟩ := IPv4Header.readFields_fields (NetParser.read_new buffer) hlong
  have hoffset := IPv4Header.readFields_offset (NetParser.new buffer)
  obtain ⟨rest, hbytes⟩ :=
    IPv4Header.wireFields_readFields (NetParser.before_new buffer) hlong reserved
  rw [← hheader] at hlate hbefore hhlen hoffset hbytes
  unfold parse
  generalize old.header.parse (NetParser.new buffer) = parsed at *
  obtain ⟨⟨result, header⟩, behind⟩ := parsed
  dsimp only at *
  rw [hlen] at hhlen
  have hpayload : behind.buffer.str = rest := by
    rw [hbefore.str, hhlen, hbytes]
    exact List.drop_left' rfl
  simp only [IPv4Header.RejectsEarly, not_or, not_not] at hlate
  have hsize : 4 * header.hlen.toNat + rest.length = header.len.toNat := by
    rw [← hlate.2.2.2, Buffer.size, hbytes, List.length_append, IPv4Header.length_wireFields, hhlen]
  have hfits : header.Fits := ⟨UInt8.toNat_inj.mp hlate.2.1, by omega, hoffset⟩
  obtain ⟨cksum, wire, hwire, hconcat, -⟩ := serialize_eq
    (d := { header, payload := BufferList.ofBuffer behind.buffer }) hfits
    (by rw [BufferList.size_ofBuffer, hpayload]; exact hsize)
  refine ⟨?_, wire, hwire, ?_⟩
  · have hlenlt := header.len.toNat_lt
    rw [BufferList.size_ofBuffer, hpayload, IPv4Header.payloadLength_toNat, if_neg (by omega)]
    exact hbefore.good
  · dsimp only at hconcat
    rw [hconcat, hhlen, resize_exact (header.sealWith cksum).length_wireFields,
      BufferList.concatenate_ofBuffer, hpayload, hbytes]
    exact header.sameBut_wireFields cksum rest

end IPv4Datagram

/-- **IPv4 datagrams survive both directions.** A datagram that fits is written, and what was written is
accepted and read back with every field but the checksum and with its payload; a packet without options
and with no reserved flag whose header is accepted is written again with every byte but those of the
checksum. -/
theorem ipv4_round_trip :
    (∀ d : IPv4Datagram, d.header.Fits →
      4 * d.header.hlen.toNat + d.payload.size = d.header.len.toNat →
      ∃ cksum wire, d.serialize = .ok wire ∧
        ∀ (old : IPv4Datagram) (buffer : Buffer), buffer.str = wire.concatenate →
          (old.header.parse (NetParser.new buffer)).1.1 = .noError ∧
            ∃ payload : Buffer, payload.str = d.payload.concatenate ∧
              old.parse buffer = (.noError,
                { header := d.header.sealWith cksum, payload := BufferList.ofBuffer payload })) ∧
    ∀ (old : IPv4Datagram) (buffer : Buffer),
      (old.header.parse (NetParser.new buffer)).1.1 = .noError → wireHlen buffer.str = 5 →
      wireReservedFlag buffer.str = 0 →
      (old.parse buffer).1 = .noError ∧
        ∃ wire, (old.parse buffer).2.serialize = .ok wire ∧
          SameBut 10 wire.concatenate buffer.str := by
  constructor
  · intro d fits size
    exact IPv4Datagram.parse_serialize fits size
  · intro old buffer accepted hlen reserved
    exact old.serialize_parse accepted hlen reserved

/-- A datagram with options, fragment fields and a payload in two pieces is written and read back; a
packet of 21 bytes is read and written again. -/
theorem ipv4_round_trip_pieces :
    let d : IPv4Datagram := { header := { hlen := 6, len := 27, df := false, mf := true, offset := 0x1abc }
                              payload := ⟨[Buffer.ofString [1], Buffer.ofString [2, 3]]⟩ }
    let packet := Buffer.ofString [0x45, 0, 0, 21, 0x12, 0x34, 0x40, 0, 64, 17, 0x14, 0xa2, 10, 0, 0, 1,
      10, 0, 0, 2, 7]
    (∃ cksum wire, d.serialize = .ok wire ∧
      ∀ (old : IPv4Datagram) (buffer : Buffer), buffer.str = wire.concatenate →
        (old.header.parse (NetParser.new buffer)).1.1 = .noError ∧
          ∃ payload : Buffer, payload.str = [1, 2, 3] ∧
            old.parse buffer = (.noError,
              { header := d.header.sealWith cksum, payload := BufferList.ofBuffer payload })) ∧
    (IPv4Datagram.parse {} packet).1 = .noError ∧
      ∃ wire, (IPv4Datagram.parse {} packet).2.serialize = .ok wire ∧
        SameBut 10 wire.concatenate packet.str :=
  ⟨ipv4_round_trip.1 _ ⟨rfl, by decide, by decide⟩ (by decide),
    ipv4_round_trip.2 {} _ (by decide +kernel) (by decide) (by decide)⟩

/-! ## TCP -/

/-- The bits of a segment that no field of a TCP header keeps: the low half of the byte of the data
offset, and the high bits of the byte of the flags. -/
def WireUnreserved (b : Bytes) : Prop := wireInt b 12 1 % 16 = 0 ∧ wireInt b 13 1 / 64 = 0

instance (b : Bytes) : Decidable (WireUnreserved b) := inferInstanceAs (Decidable (_ ∧ _))

namespace TCPHeader

/-- **The fields that were read are written as the bytes they were read from.** -/
theorem wireFields_readFields (before : p.Before b) (long : 20 ≤ b.length)
    (unreserved : WireUnreserved b) : ∃ rest, b = (readFields p).1.wireFields ++ rest := by
  have hdoff := before.read.u16.u16.u32.u32.u8_fst (by omega)
  have hflB := before.read.u16.u16.u32.u32.u8.u8_fst (by omega)
  rw [WireUnreserved, ← hdoff, ← hflB] at unreserved
  obtain ⟨rest, rfl, hlen, before⟩ := before.takes_u16 (by omega)
  obtain ⟨rest, rfl, hlen, before⟩ := before.takes_u16 (by omega)
  obtain ⟨rest, rfl, hlen, before⟩ := before.takes_u32 (by omega)
  obtain ⟨rest, rfl, hlen, before⟩ := before.takes_u32 (by omega)
  obtain ⟨rest, rfl, hlen, before⟩ := before.takes_u8 (by omega)
  obtain ⟨rest, rfl, hlen, before⟩ := before.takes_u8 (by omega)
  obtain ⟨rest, rfl, hlen, before⟩ := before.takes_u16 (by omega)
  obtain ⟨rest, rfl, hlen, before⟩ := before.takes_u16 (by omega)
  obtain ⟨rest, rfl, hlen, before⟩ := before.takes_u16 (by omega)
  refine ⟨rest, ?_⟩
  unfold readFields wireFields
  dsimp only
  have hhigh := (UInt8.of_parts _).2.1 unreserved.1
  have hflags := (UInt8.of_parts _).2.2 unreserved.2
  simp only [hhigh, hflags, List.append_assoc]

/-- Two headers that differ in their checksum are written with the checksum's two bytes apart. -/
theorem sameBut_wireFields (h : TCPHeader) (cksum : UInt16) (payload : Bytes) :
    SameBut 16 ((h.sealWith cksum).wireFields ++ payload) (h.wireFields ++ payload) := by
  obtain ⟨front, back, hfront, -, hsplit⟩ := h.wireFields_split
  have hself : h.wireFields = front ++ NetUnparser.u16 h.cksum ++ back := hsplit h.cksum
  rw [hsplit, hself, List.append_assoc, List.append_assoc _ back]
  exact sameBut_word hfront _ _ _

/-- What a header is that the parser had the bytes for: the fields of the packet, with the parser left
behind the options. -/
theorem parse_accepted {buffer : Buffer}
    (good : (parse (NetParser.new buffer)).2.error = .noError) (doff : 5 ≤ wireDoff buffer.str) :
    let header := (readFields (NetParser.new buffer)).1
    20 ≤ buffer.str.length ∧ (parse (NetParser.new buffer)).1.2 = header ∧
      (parse (NetParser.new buffer)).2.Before (buffer.str.drop (4 * header.doff.toNat)) := by
  have hread := readFields_read (NetParser.read_new buffer)
  have hdoff := readFields_doff (NetParser.read_new buffer)
  unfold parse at *
  generalize readFields (NetParser.new buffer) = fields at *
  dsimp only at *
  split at good
  next hless =>
    -- the parser read all fields, so the data offset is the packet's
    have hlong := hread.error_eq.mp good
    rw [UInt8.lt_iff_toNat_lt, hdoff hlong] at hless
    exact absurd hless (Nat.not_lt_of_le doff)
  next hmore =>
    have hskip := hread.removePrefix (fields.1.doff.toNat * 4 - LENGTH)
    rw [if_neg hmore]
    split at good
    next herr => exact absurd good herr
    next herr =>
      have hlong := hskip.error_eq.mp (not_not.mp herr)
      obtain ⟨hgood, hstr⟩ := hskip.within hlong
      have hwidth : 20 + (fields.1.doff.toNat * 4 - LENGTH) = 4 * fields.1.doff.toNat := by
        have := hdoff (by omega)
        unfold LENGTH
        omega
      rw [if_neg herr]
      exact ⟨by omega, rfl, hgood, hwidth ▸ hstr⟩

end TCPHeader

namespace TCPSegment

/-- **A segment without options that is accepted is written again as it was**, but for its checksum. -/
theorem serialize_parse (old : TCPSegment) {buffer : Buffer} {datagramLayerChecksum : UInt32}
    (accepted : (old.parse buffer datagramLayerChecksum).1 = .noError)
    (below : datagramLayerChecksum.toNat + 65280 * buffer.str.length < 2 ^ 32)
    (doff : wireDoff buffer.str = 5) (unreserved : WireUnreserved buffer.str) :
    ∃ wire, (old.parse buffer datagramLayerChecksum).2.serialize datagramLayerChecksum = .ok wire ∧
      SameBut 16 wire.concatenate buffer.str := by
  unfold parse at *
  dsimp only at *
  split at accepted
  next => cases accepted
  next hsum =>
    obtain ⟨hlong, hheader, hbefore⟩ := TCPHeader.parse_accepted accepted (Nat.le_of_eq doff.symm)
    have hdoff := TCPHeader.readFields_doff (NetParser.read_new buffer) hlong
    obtain ⟨rest, hbytes⟩ :=
      TCPHeader.wireFields_readFields (NetParser.before_new buffer) hlong unreserved
    rw [← hheader] at hbefore hdoff hbytes
    rw [if_neg hsum]
    generalize TCPHeader.parse (NetParser.new buffer) = parsed at *
    obtain ⟨⟨result, header⟩, behind⟩ := parsed
    dsimp only at *
    rw [doff] at hdoff
    have hpayload : behind.buffer.str = rest := by
      rw [hbefore.str, hdoff, hbytes]
      exact List.drop_left' rfl
    have hlength : buffer.str.length = 20 + rest.length := by
      rw [hbytes, List.length_append, TCPHeader.length_wireFields]
    have hfits : ({ header, payload := behind.buffer } : TCPSegment).header.Fits :=
      ⟨Nat.le_of_eq hdoff.symm, hdoff ▸ by decide⟩
    have hbelow : datagramLayerChecksum.toNat +
        65280 * (4 * header.doff.toNat + behind.buffer.str.length) < 2 ^ 32 := by
      rw [hpayload, hdoff]
      omega
    obtain ⟨cksum, wire, hwire, hconcat, -⟩ := serialize_eq hfits hbelow
    refine ⟨wire, hwire, ?_⟩
    rw [hconcat, hdoff, resize_exact (header.sealWith cksum).length_wireFields, hpayload, hbytes]
    exact header.sameBut_wireFields cksum rest

end TCPSegment

/-- **TCP segments survive both directions**, under every sum of a pseudo-header below `2 ^ 20`. A
segment that fits a datagram is written, and what was written is accepted and read back with every field
but the checksum and with its payload; a packet that is accepted, without options and with no reserved
bit, is written again with every byte but those of the checksum. -/
theorem tcp_round_trip (datagramLayerChecksum : UInt32)
    (small : datagramLayerChecksum.toNat < 2 ^ 20) :
    (∀ seg : TCPSegment, seg.header.Fits →
      4 * seg.header.doff.toNat + seg.payload.size ≤ 65535 →
      ∃ cksum wire, seg.serialize datagramLayerChecksum = .ok wire ∧
        ∀ (old : TCPSegment) (buffer : Buffer), buffer.str = wire.concatenate →
          ∃ payload : Buffer, payload.str = seg.payload.str ∧
            old.parse buffer datagramLayerChecksum =
              (.noError, { header := seg.header.sealWith cksum, payload })) ∧
    ∀ (old : TCPSegment) (buffer : Buffer), buffer.str.length ≤ 65535 →
      (old.parse buffer datagramLayerChecksum).1 = .noError → wireDoff buffer.str = 5 →
      WireUnreserved buffer.str →
      ∃ wire, (old.parse buffer datagramLayerChecksum).2.serialize datagramLayerChecksum = .ok wire ∧
        SameBut 16 wire.concatenate buffer.str := by
  constructor
  · intro seg fits size
    have hsize : seg.payload.size = seg.payload.str.length := rfl
    obtain ⟨cksum, wire, hwire, -, hback⟩ := TCPSegment.parse_serialize fits
      (show datagramLayerChecksum.toNat +
        65280 * (4 * seg.header.doff.toNat + seg.payload.str.length) < 2 ^ 32 by omega)
    exact ⟨cksum, wire, hwire, hback⟩
  · intro old buffer length accepted doff unreserved
    exact old.serialize_parse accepted (by omega) doff unreserved

/-- A segment with options and a payload of odd length is written and read back; a packet of 21 bytes is
read and written again. -/
theorem tcp_round_trip_odd :
    let seg : TCPSegment := { header := { doff := 6, syn := true, ack := true, win := 1000 }
                              payload := Buffer.ofString [1, 2, 3] }
    let packet := Buffer.ofString [0, 1, 0, 2, 0, 0, 0, 3, 0, 0, 0, 4, 0x50, 0x18, 0, 100, 0xeb, 0x90, 0,
      0, 7]
    (∃ cksum wire, seg.serialize 0xabcde = .ok wire ∧
      ∀ (old : TCPSegment) (buffer : Buffer), buffer.str = wire.concatenate →
        ∃ payload : Buffer, payload.str = [1, 2, 3] ∧
          old.parse buffer 0xabcde =
            (.noError, { header := seg.header.sealWith cksum, payload })) ∧
    ∃ wire, (TCPSegment.parse {} packet 0xabcde).2.serialize 0xabcde = .ok wire ∧
      SameBut 16 wire.concatenate packet.str :=
  ⟨(tcp_round_trip 0xabcde (by decide)).1 _ ⟨by decide, by decide⟩ (by decide),
    (tcp_round_trip 0xabcde (by decide)).2 {} _ (by decide) (by decide +kernel) (by decide) (by decide)⟩

end Sponge
