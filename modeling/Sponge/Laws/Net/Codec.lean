import Sponge.Laws.Net.Parsers

/-!
# Laws.Net.Codec — what is written is read back

A header that fits its fields is written to a string that its reader takes apart again: the fields
come back as they were, and the parser is left behind the header (`IPv4Header.readFields_wireFields`,
`TCPHeader.readFields_wireFields`). The checksum field is filled in between, and seals the header or
the segment, so the parsers accept it.

`IPv4Datagram.parse_serialize` and `TCPSegment.parse_serialize` put that together: a datagram or a
segment comes back with every field but the checksum, and with its payload.
-/

namespace Sponge

open NetParser (Before)

variable {p : NetParser} {rest : Bytes}

/-- A string that is not longer is filled up with zeros. -/
theorem resize_eq {s : Bytes} {n : Nat} (le : s.length ≤ n) :
    resize s n = s ++ List.replicate (n - s.length) 0 := by
  rw [resize, List.take_of_length_le le]

theorem length_resize (s : Bytes) (n : Nat) : (resize s n).length = n := by
  simp only [resize, List.length_append, List.length_take, List.length_replicate]
  omega

/-- **A header with its checksum filled in is sealed**, alone or with the payload behind it. `wire`
writes the header for a checksum, at an even place, and the header is expanded to `n` bytes. -/
theorem checksum_resize (initialSum : UInt32) (payload : Bytes) (n : Nat) {wire : UInt16 → Bytes}
    {front back : Bytes} (split : ∀ cksum, wire cksum = front ++ NetUnparser.u16 cksum ++ back)
    (even : front.length % 2 = 0) (le : front.length + 2 + back.length ≤ n)
    (below : initialSum.toNat + 65280 * (n + payload.length) < 2 ^ 32) :
    checksum initialSum
      (resize (wire (checksum initialSum (resize (wire 0) n ++ payload))) n ++ payload) = 0 := by
  have hword : ∀ cksum, (NetUnparser.u16 cksum).length = 2 := fun _ => rfl
  have hwire : ∀ cksum, resize (wire cksum) n ++ payload =
      front ++ NetUnparser.u16 cksum ++
        (back ++ List.replicate (n - (front.length + 2 + back.length)) 0 ++ payload) := by
    intro cksum
    have hlen : (wire cksum).length = front.length + 2 + back.length := by
      rw [split, List.length_append, List.length_append, hword]
    rw [resize_eq (by omega), hlen, split]
    simp only [List.append_assoc]
  rw [hwire, hwire]
  refine checksum_sealed even _ ?_
  simp only [List.length_append, List.length_replicate]
  omega

/-! ## Bit fields -/

/-- What holds of 256 bytes holds of every byte. -/
theorem UInt8.forall_of_fin {P : UInt8 → Prop} (h : ∀ n : Fin 256, P (UInt8.ofNat n)) (byte : UInt8) :
    P byte := by
  have hbyte := h ⟨byte.toNat, byte.toNat_lt⟩
  rwa [UInt8.ofNat_toNat] at hbyte

/-- Two half bytes are told apart again. -/
theorem UInt8.halves {x : UInt8} (small : x.toNat < 16) :
    (((4 : UInt8) <<< 4) ||| (x &&& 0xf)) >>> 4 = 4 ∧
      (((4 : UInt8) <<< 4) ||| (x &&& 0xf)) &&& 0x0f = x ∧ (x <<< 4) >>> 4 = x := by
  revert x
  apply UInt8.forall_of_fin
  decide +kernel

theorem UInt16.or_and_distrib (a b c : UInt16) : (a ||| b) &&& c = (a &&& c) ||| (b &&& c) := by
  apply UInt16.toNat_inj.mp
  simp only [UInt16.toNat_and, UInt16.toNat_or, Nat.and_or_distrib_right]

/-- The flags and the offset share a word and are told apart again. -/
theorem foVal_split (df mf : Bool) (offset : UInt16) :
    let foVal : UInt16 :=
      (if df then 0x4000 else 0) ||| (if mf then 0x2000 else 0) ||| (offset &&& 0x1fff)
    decide (foVal &&& 0x4000 ≠ 0) = df ∧ decide (foVal &&& 0x2000 ≠ 0) = mf ∧
      foVal &&& 0x1fff = offset &&& 0x1fff := by
  have hdf : ∀ df mf : Bool, decide ((((if df then 0x4000 else 0) &&& 0x4000) |||
      ((if mf then 0x2000 else 0) &&& 0x4000) ||| (0x1fff &&& 0x4000) : UInt16) ≠ 0) = df := by decide
  have hmf : ∀ df mf : Bool, decide ((((if df then 0x4000 else 0) &&& 0x2000) |||
      ((if mf then 0x2000 else 0) &&& 0x2000) ||| (0x1fff &&& 0x2000) : UInt16) ≠ 0) = mf := by decide
  have hoffset : ∀ df mf : Bool, (((if df then 0x4000 else 0) &&& 0x1fff) |||
      ((if mf then 0x2000 else 0) &&& 0x1fff) : UInt16) = 0 := by decide
  have hfour : offset &&& ((0x1fff : UInt16) &&& 0x4000) = 0x1fff &&& 0x4000 := UInt16.and_zero
  have htwo : offset &&& ((0x1fff : UInt16) &&& 0x2000) = 0x1fff &&& 0x2000 := UInt16.and_zero
  intro foVal
  simp only [foVal, UInt16.or_and_distrib, UInt16.and_assoc, hfour, htwo]
  refine ⟨hdf df mf, hmf df mf, ?_⟩
  rw [hoffset, UInt16.zero_or]
  exact congrArg (offset &&& ·) (UInt16.and_self)

/-- The flags of a segment share a byte and are told apart again. -/
theorem flB_split : ∀ urg ack psh rst syn fin : Bool,
    let flB : UInt8 :=
      (if urg then 0b00100000 else 0) ||| (if ack then 0b00010000 else 0) |||
        (if psh then 0b00001000 else 0) ||| (if rst then 0b00000100 else 0) |||
        (if syn then 0b00000010 else 0) ||| (if fin then 0b00000001 else 0)
    decide (flB &&& 0b00100000 ≠ 0) = urg ∧ decide (flB &&& 0b00010000 ≠ 0) = ack ∧
      decide (flB &&& 0b00001000 ≠ 0) = psh ∧ decide (flB &&& 0b00000100 ≠ 0) = rst ∧
      decide (flB &&& 0b00000010 ≠ 0) = syn ∧ decide (flB &&& 0b00000001 ≠ 0) = fin := by
  decide

/-! ## IPv4 -/

namespace IPv4Header

variable {h : IPv4Header}

/-- A header whose fields fit their places on the wire. -/
structure Fits (h : IPv4Header) : Prop where
  ver : h.ver = 4
  hlen : 5 ≤ h.hlen.toNat ∧ h.hlen.toNat < 16
  offset : h.offset.toNat < 2 ^ 13

/-- The header with its checksum field set. -/
def sealWith (h : IPv4Header) (cksum : UInt16) : IPv4Header := { h with cksum }

theorem Fits.sealWith (fits : h.Fits) (cksum : UInt16) : (h.sealWith cksum).Fits :=
  ⟨fits.ver, fits.hlen, fits.offset⟩

theorem length_wireFields (h : IPv4Header) : h.wireFields.length = 20 := rfl

/-- **The reader takes a header apart as it was written.** -/
theorem readFields_wireFields (fits : h.Fits) (before : p.Before (h.wireFields ++ rest)) :
    (readFields p).1 = h ∧ (readFields p).2.Before rest := by
  simp only [wireFields, List.append_assoc] at before
  obtain ⟨hfirst, before⟩ := before.u8
  obtain ⟨htos, before⟩ := before.u8
  obtain ⟨hlen, before⟩ := before.u16
  obtain ⟨hid, before⟩ := before.u16
  obtain ⟨hfo, before⟩ := before.u16
  obtain ⟨httl, before⟩ := before.u8
  obtain ⟨hproto, before⟩ := before.u8
  obtain ⟨hcksum, before⟩ := before.u16
  obtain ⟨hsrc, before⟩ := before.u32
  obtain ⟨hdst, before⟩ := before.u32
  obtain ⟨hver, hhlen, -⟩ := UInt8.halves fits.hlen.2
  obtain ⟨hdf, hmf, hoffset⟩ := foVal_split h.df h.mf h.offset
  have hkeep : h.offset &&& 0x1fff = h.offset := by
    apply UInt16.toNat_inj.mp
    rw [UInt16.toNat_and]
    exact (Nat.and_two_pow_sub_one_eq_mod _ 13).trans (Nat.mod_eq_of_lt fits.offset)
  unfold readFields
  dsimp only
  refine ⟨?_, before⟩
  rw [hfirst, htos, hlen, hid, hfo, httl, hproto, hcksum, hsrc, hdst, fits.ver, hver, hhlen, hdf, hmf,
    hoffset, hkeep, ← fits.ver]

/-- The checksum stands behind ten bytes. -/
theorem wireFields_split (h : IPv4Header) : ∃ front back : Bytes,
    front.length = 10 ∧ back.length = 8 ∧
      ∀ cksum, (h.sealWith cksum).wireFields = front ++ NetUnparser.u16 cksum ++ back := by
  let foVal : UInt16 :=
    (if h.df then 0x4000 else 0) ||| (if h.mf then 0x2000 else 0) ||| (h.offset &&& 0x1fff)
  exact ⟨NetUnparser.u8 ((h.ver <<< 4) ||| (h.hlen &&& 0xf)) ++ NetUnparser.u8 h.tos ++
    NetUnparser.u16 h.len ++ NetUnparser.u16 h.id ++ NetUnparser.u16 foVal ++
    NetUnparser.u8 h.ttl ++ NetUnparser.u8 h.proto, NetUnparser.u32 h.src ++ NetUnparser.u32 h.dst,
    rfl, rfl, fun _ => List.append_assoc _ _ _⟩

/-- **A sealed header is accepted**, and the parser is left before the payload. -/
theorem parse_sealed (fits : h.Fits) {payload : Bytes}
    (len : 4 * h.hlen.toNat + payload.length = h.len.toNat)
    (sealed : checksum 0 (resize h.wireFields (4 * h.hlen.toNat)) = 0) {buffer : Buffer}
    (str : buffer.str = resize h.wireFields (4 * h.hlen.toNat) ++ payload) (old : IPv4Header) :
    let parsed := old.parse (NetParser.new buffer)
    parsed.1 = (.noError, h) ∧ parsed.2.Before payload := by
  have hhlen := fits.hlen
  have hlength : buffer.str.length = 4 * h.hlen.toNat + payload.length := by
    rw [str, List.length_append, length_resize]
  have hbefore : (NetParser.new buffer).Before
      (h.wireFields ++ (List.replicate (4 * h.hlen.toNat - 20) 0 ++ payload)) := by
    refine ⟨rfl, ?_⟩
    show buffer.str = _
    rw [str, resize_eq (by rw [length_wireFields]; omega), length_wireFields, List.append_assoc]
  obtain ⟨hfields, -⟩ := readFields_wireFields fits hbefore
  have hread := readFields_read (NetParser.read_new buffer)
  rw [parse_long old (by omega)]
  generalize readFields (NetParser.new buffer) = fields at *
  have hlate : ¬ h.RejectsEarly buffer.size := by
    have hver : h.ver.toNat = 4 := congrArg UInt8.toNat fits.ver
    unfold RejectsEarly Buffer.size
    omega
  rw [hfields]
  obtain ⟨hskip, hgood⟩ := check_late h hlate hread
  have htake : buffer.str.take (4 * h.hlen.toNat) = resize h.wireFields (4 * h.hlen.toNat) := by
    rw [str, List.take_append_of_le_length (by simp [length_resize]),
      List.take_of_length_le (by simp [length_resize])]
  obtain ⟨herr, hstr⟩ := hskip.within (by omega)
  refine ⟨?_, herr, ?_⟩
  · show ((h.check buffer fields.2).1, h) = _
    rw [hgood.mpr (htake ▸ sealed)]
  · rw [hstr, str, List.drop_append_of_le_length (by simp [length_resize]),
      List.drop_of_length_le (by simp [length_resize]), List.nil_append]

end IPv4Header

namespace IPv4Datagram

/-- What `serialize` writes for a datagram that fits: a sealed header, and the payload. -/
theorem serialize_eq {d : IPv4Datagram} (fits : d.header.Fits)
    (size : 4 * d.header.hlen.toNat + d.payload.size = d.header.len.toNat) :
    ∃ cksum wire, d.serialize = .ok wire ∧
      wire.concatenate = resize (d.header.sealWith cksum).wireFields (4 * d.header.hlen.toNat) ++
        d.payload.concatenate ∧
      checksum 0 (resize (d.header.sealWith cksum).wireFields (4 * d.header.hlen.toNat)) = 0 := by
  have hhlen := fits.hlen
  have hlen := d.header.len.toNat_lt
  have hheader : ∀ cksum, (d.header.sealWith cksum).serialize =
      .ok (resize (d.header.sealWith cksum).wireFields (4 * d.header.hlen.toNat)) := by
    intro cksum
    unfold IPv4Header.serialize
    rw [if_neg (not_not.mpr (fits.sealWith cksum).ver), if_neg]
    · rfl
    · have := (fits.sealWith cksum).hlen
      unfold IPv4Header.LENGTH
      omega
  have hpayload : d.payload.size = d.header.payloadLength.toNat := by
    rw [IPv4Header.payloadLength_toNat]
    omega
  obtain ⟨front, back, hfront, hback, hsplit⟩ := d.header.wireFields_split
  have hsealed := checksum_resize 0 [] (4 * d.header.hlen.toNat) hsplit (by omega) (by omega)
    (by simp only [UInt32.toNat_zero, List.length_nil]; omega)
  simp only [List.append_nil] at hsealed
  refine ⟨_, (BufferList.empty.append (BufferList.ofString (resize (d.header.sealWith (checksum 0
    (resize (d.header.sealWith 0).wireFields (4 * d.header.hlen.toNat)))).wireFields
      (4 * d.header.hlen.toNat)))).append d.payload, ?_, ?_, hsealed⟩
  · unfold serialize
    rw [if_neg (not_not.mpr hpayload)]
    show (d.header.sealWith 0).serialize >>= _ = _
    rw [hheader]
    show (d.header.sealWith _).serialize >>= _ = _
    rw [hheader]
    rfl
  · simp [BufferList.concatenate, BufferList.append, BufferList.empty, BufferList.ofString,
      BufferList.ofBuffer]

/-- **A datagram that fits is read back as it was written**, with the checksum filled in. -/
theorem parse_serialize {d : IPv4Datagram} (fits : d.header.Fits)
    (size : 4 * d.header.hlen.toNat + d.payload.size = d.header.len.toNat) :
    ∃ cksum wire, d.serialize = .ok wire ∧
      ∀ (old : IPv4Datagram) (buffer : Buffer), buffer.str = wire.concatenate →
        (old.header.parse (NetParser.new buffer)).1.1 = .noError ∧
          ∃ payload : Buffer, payload.str = d.payload.concatenate ∧
            old.parse buffer = (.noError,
              { header := d.header.sealWith cksum, payload := BufferList.ofBuffer payload }) := by
  obtain ⟨cksum, wire, hwire, hbytes, hsealed⟩ := serialize_eq fits size
  have hlength := d.payload.length_concatenate
  refine ⟨cksum, wire, hwire, fun old buffer hstr => ?_⟩
  obtain ⟨hheader, hbefore⟩ := IPv4Header.parse_sealed (fits.sealWith cksum)
    (by rw [hlength]; exact size) hsealed (hstr.trans hbytes) old.header
  have hpayload : (d.header.sealWith cksum).payloadLength.toNat = d.payload.size := by
    have hhlen := fits.hlen
    have hlen := d.header.len.toNat_lt
    rw [IPv4Header.payloadLength_toNat]
    show (d.header.len.toNat + (2 ^ 16 - 4 * d.header.hlen.toNat)) % 2 ^ 16 = _
    omega
  unfold parse
  generalize old.header.parse (NetParser.new buffer) = parsed at *
  obtain ⟨⟨result, header⟩, rest⟩ := parsed
  cases hheader
  dsimp only at hbefore ⊢
  refine ⟨rfl, rest.buffer, hbefore.str, ?_⟩
  rw [BufferList.size_ofBuffer, hbefore.str, hlength, hpayload, if_neg (not_not.mpr rfl), hbefore.good]

end IPv4Datagram

/-! ## TCP -/

namespace TCPHeader

variable {h : TCPHeader}

/-- The data offset fits its half byte and covers the fields. -/
def Fits (h : TCPHeader) : Prop := 5 ≤ h.doff.toNat ∧ h.doff.toNat < 16

/-- The header with its checksum field set. -/
def sealWith (h : TCPHeader) (cksum : UInt16) : TCPHeader := { h with cksum }

theorem length_wireFields (h : TCPHeader) : h.wireFields.length = 20 := rfl

/-- **The reader takes a header apart as it was written.** -/
theorem readFields_wireFields (fits : h.Fits) (before : p.Before (h.wireFields ++ rest)) :
    (readFields p).1 = h ∧ (readFields p).2.Before rest := by
  simp only [wireFields, List.append_assoc] at before
  obtain ⟨hsport, before⟩ := before.u16
  obtain ⟨hdport, before⟩ := before.u16
  obtain ⟨hseqno, before⟩ := before.u32
  obtain ⟨hackno, before⟩ := before.u32
  obtain ⟨hdoff, before⟩ := before.u8
  obtain ⟨hflB, before⟩ := before.u8
  obtain ⟨hwin, before⟩ := before.u16
  obtain ⟨hcksum, before⟩ := before.u16
  obtain ⟨huptr, before⟩ := before.u16
  obtain ⟨-, -, hshift⟩ := UInt8.halves fits.2
  obtain ⟨hurg, hack, hpsh, hrst, hsyn, hfin⟩ := flB_split h.urg h.ack h.psh h.rst h.syn h.fin
  unfold readFields
  dsimp only
  refine ⟨?_, before⟩
  rw [hsport, hdport, hseqno, hackno, hdoff, hflB, hwin, hcksum, huptr, hshift, hurg, hack, hpsh, hrst,
    hsyn, hfin]

/-- The checksum stands behind sixteen bytes. -/
theorem wireFields_split (h : TCPHeader) : ∃ front back : Bytes,
    front.length = 16 ∧ back.length = 2 ∧
      ∀ cksum, (h.sealWith cksum).wireFields = front ++ NetUnparser.u16 cksum ++ back := by
  let flB : UInt8 :=
    (if h.urg then 0b00100000 else 0) ||| (if h.ack then 0b00010000 else 0) |||
      (if h.psh then 0b00001000 else 0) ||| (if h.rst then 0b00000100 else 0) |||
      (if h.syn then 0b00000010 else 0) ||| (if h.fin then 0b00000001 else 0)
  exact ⟨NetUnparser.u16 h.sport ++ NetUnparser.u16 h.dport ++ NetUnparser.u32 h.seqno.rawValue ++
    NetUnparser.u32 h.ackno.rawValue ++ NetUnparser.u8 (h.doff <<< 4) ++ NetUnparser.u8 flB ++
    NetUnparser.u16 h.win, NetUnparser.u16 h.uptr, rfl, rfl, fun _ => rfl⟩

/-- A header as it was serialized is accepted, and the parser is left before the payload. -/
theorem parse_resize (fits : h.Fits) {payload : Bytes}
    (before : p.Before (resize h.wireFields (4 * h.doff.toNat) ++ payload)) :
    (parse p).1 = (.noError, h) ∧ (parse p).2.Before payload := by
  have hdoff : 5 ≤ h.doff.toNat := fits.1
  rw [resize_eq (by rw [length_wireFields]; omega), length_wireFields, List.append_assoc] at before
  obtain ⟨hfields, hbefore⟩ := readFields_wireFields fits before
  unfold parse
  generalize readFields p = fields at *
  obtain ⟨header, behind⟩ := fields
  cases hfields
  dsimp only at hbefore ⊢
  have hskip := hbefore.removePrefix (n := header.doff.toNat * 4 - LENGTH) (by
    rw [List.length_replicate, LENGTH]
    omega)
  rw [if_neg (fun hc => Nat.not_lt_of_le hdoff (UInt8.lt_iff_toNat_lt.mp hc)),
    if_neg (not_not.mpr hskip.good)]
  exact ⟨rfl, hskip⟩

end TCPHeader

namespace TCPSegment

/-- What `serialize` writes for a segment that fits: a header that seals the segment, and the
payload. -/
theorem serialize_eq {seg : TCPSegment} (fits : seg.header.Fits) {datagramLayerChecksum : UInt32}
    (below : datagramLayerChecksum.toNat +
      65280 * (4 * seg.header.doff.toNat + seg.payload.str.length) < 2 ^ 32) :
    ∃ cksum wire, seg.serialize datagramLayerChecksum = .ok wire ∧
      wire.concatenate = resize (seg.header.sealWith cksum).wireFields (4 * seg.header.doff.toNat) ++
        seg.payload.str ∧
      checksum datagramLayerChecksum wire.concatenate = 0 := by
  have hdoff : 5 ≤ seg.header.doff.toNat := fits.1
  have hheader : ∀ cksum, (seg.header.sealWith cksum).serialize =
      .ok (resize (seg.header.sealWith cksum).wireFields (4 * seg.header.doff.toNat)) := by
    intro cksum
    unfold TCPHeader.serialize
    rw [if_neg (fun hc => Nat.not_lt_of_le hdoff (UInt8.lt_iff_toNat_lt.mp hc))]
    rfl
  obtain ⟨front, back, hfront, hback, hsplit⟩ := seg.header.wireFields_split
  have hsealed := checksum_resize datagramLayerChecksum seg.payload.str (4 * seg.header.doff.toNat)
    hsplit (by omega) (by omega) below
  have hadd : ∀ b : Bytes, (((InternetChecksum.new datagramLayerChecksum).add b).add
      seg.payload.str).value = checksum datagramLayerChecksum (b ++ seg.payload.str) := by
    intro b
    rw [checksum, InternetChecksum.add, InternetChecksum.add, InternetChecksum.add, List.foldl_append]
  generalize hcksum : checksum datagramLayerChecksum
    (resize (seg.header.sealWith 0).wireFields (4 * seg.header.doff.toNat) ++ seg.payload.str) = cksum at *
  have hbytes : ((BufferList.empty.append (BufferList.ofString
      (resize (seg.header.sealWith cksum).wireFields (4 * seg.header.doff.toNat)))).append
        (BufferList.ofBuffer seg.payload)).concatenate =
      resize (seg.header.sealWith cksum).wireFields (4 * seg.header.doff.toNat) ++ seg.payload.str := by
    simp [BufferList.concatenate, BufferList.append, BufferList.empty, BufferList.ofString,
      BufferList.ofBuffer]
  refine ⟨cksum, _, ?_, hbytes, hbytes ▸ hsealed⟩
  unfold serialize
  show (seg.header.sealWith 0).serialize >>= _ = _
  rw [hheader]
  show (seg.header.sealWith _).serialize >>= _ = _
  rw [hadd, hcksum, hheader]
  rfl

/-- **A segment that fits is read back as it was written**, with the checksum filled in. -/
theorem parse_serialize {seg : TCPSegment} (fits : seg.header.Fits) {datagramLayerChecksum : UInt32}
    (below : datagramLayerChecksum.toNat +
      65280 * (4 * seg.header.doff.toNat + seg.payload.str.length) < 2 ^ 32) :
    ∃ cksum wire, seg.serialize datagramLayerChecksum = .ok wire ∧
      wire.size = 4 * seg.header.doff.toNat + seg.payload.str.length ∧
      ∀ (old : TCPSegment) (buffer : Buffer), buffer.str = wire.concatenate →
        ∃ payload : Buffer, payload.str = seg.payload.str ∧
          old.parse buffer datagramLayerChecksum =
            (.noError, { header := seg.header.sealWith cksum, payload }) := by
  obtain ⟨cksum, wire, hwire, hbytes, hsealed⟩ := serialize_eq fits below
  refine ⟨cksum, wire, hwire, ?_, fun old buffer hstr => ?_⟩
  · rw [← wire.length_concatenate, hbytes, List.length_append, length_resize]
  have hbefore := NetParser.before_new buffer
  rw [hstr, hbytes] at hbefore
  obtain ⟨hheader, hrest⟩ := TCPHeader.parse_resize
    (show (seg.header.sealWith cksum).Fits from fits) hbefore
  have hgood : ((InternetChecksum.new datagramLayerChecksum).add buffer.str).value = 0 := hstr ▸ hsealed
  unfold parse
  dsimp only
  rw [if_neg (not_not.mpr hgood)]
  generalize TCPHeader.parse (NetParser.new buffer) = parsed at *
  obtain ⟨⟨result, header⟩, behind⟩ := parsed
  cases hheader
  dsimp only at hrest ⊢
  exact ⟨behind.buffer, hrest.str, by rw [hrest.good]⟩

end TCPSegment

/-! ## ARP -/

/-- An address that was written byte by byte is read back. -/
theorem EthernetAddress.read_written {eaddr : EthernetAddress}
    (before : p.Before (eaddr.1.flatMap NetUnparser.u8 ++ rest)) :
    (EthernetAddress.read p).1 = eaddr ∧ (EthernetAddress.read p).2.Before rest := by
  obtain ⟨hbytes, hrest⟩ := before.bytes eaddr.2
  unfold EthernetAddress.read
  dsimp only
  exact ⟨Subtype.ext hbytes, hrest⟩

/-- **A supported message is read back as it was written.** -/
theorem ARPMessage.parse_serialize {m : ARPMessage} (supported : m.supported = true) {payload : Bytes}
    (written : m.serialize = .ok payload) (old : ARPMessage) {buffer : Buffer}
    (str : buffer.str = payload) : old.parse buffer = (.noError, m) := by
  unfold ARPMessage.serialize at written
  rw [if_neg (by simp [supported])] at written
  cases written
  have hsize : ¬ (NetParser.new buffer).buffer.size < LENGTH := by
    show ¬ buffer.str.length < LENGTH
    have hword : ∀ val, (NetUnparser.u16 val).length = 2 := fun _ => rfl
    have hbyte : ∀ val, (NetUnparser.u8 val).length = 1 := fun _ => rfl
    have hlong : ∀ val, (NetUnparser.u32 val).length = 4 := fun _ => rfl
    simp [str, hword, hbyte, hlong, List.length_flatMap, m.senderEthernetAddress.2,
      m.targetEthernetAddress.2, LENGTH]
  have before := NetParser.before_new buffer
  rw [str, ← List.append_nil (NetUnparser.u32 m.targetIpAddress)] at before
  simp only [List.append_assoc] at before
  obtain ⟨hhardwareType, before⟩ := before.u16
  obtain ⟨hprotocolType, before⟩ := before.u16
  obtain ⟨hhardwareAddressSize, before⟩ := before.u8
  obtain ⟨hprotocolAddressSize, before⟩ := before.u8
  obtain ⟨hopcode, before⟩ := before.u16
  obtain ⟨hsenderEthernetAddress, before⟩ := EthernetAddress.read_written before
  obtain ⟨hsenderIpAddress, before⟩ := before.u32
  obtain ⟨htargetEthernetAddress, before⟩ := EthernetAddress.read_written before
  obtain ⟨htargetIpAddress, before⟩ := before.u32
  unfold ARPMessage.parse
  dsimp only
  rw [if_neg hsize, hhardwareType, hprotocolType, hhardwareAddressSize, hprotocolAddressSize, hopcode]
  rw [if_neg]
  · rw [hsenderEthernetAddress, hsenderIpAddress, htargetEthernetAddress, htargetIpAddress, before.good]
  · have hsame : ARPMessage.supported { old with
        hardwareType := m.hardwareType
        protocolType := m.protocolType
        hardwareAddressSize := m.hardwareAddressSize
        protocolAddressSize := m.protocolAddressSize
        opcode := m.opcode } = m.supported := rfl
    rw [hsame, supported]
    exact Bool.noConfusion

end Sponge
