import Sponge.Laws.Net.Adapter
import Sponge.Laws.Net.Asking
import Sponge.Laws.Net.Router
import Sponge.Laws.Tcp.Outgoing

/-!
# Laws.Net.Transit — segments on their way

A segment that an adapter wraps leaves in a datagram, and the datagram may be kept by an interface, sent in
a frame, received by a router, and sent on with less time to live and another checksum. `Bears` is what
stays the same on the way, and `Encodes` says it of the bytes on a wire. Whoever unwraps such a datagram in
the end makes of it a segment like the one that was sent, if the addresses and ports are right
(`Bears.unwrap_cases`).

Interfaces and routers are looked at with an arbitrary predicate `Good` on the bytes of datagrams: what they
hold and send is good, if what they are given is (`Bearing`). A router needs that a datagram which is good
remains good with less time to live (`Relayable`).
-/

namespace Sponge

/-! ## Datagrams -/

namespace TCPOverIPv4Adapter

variable {a b : TCPOverIPv4Adapter} {cfg : FdAdapterConfig} {seg got : TCPSegment} {d : IPv4Datagram}

/-- The segment with the ports of this configuration. -/
def addressed (cfg : FdAdapterConfig) (seg : TCPSegment) : TCPSegment := setPorts ⟨cfg, false⟩ seg

/-- The header of the datagram around it. -/
def envelope (cfg : FdAdapterConfig) (seg : TCPSegment) : IPv4Header :=
  TCPOverIPv4Adapter.ipHeader ⟨cfg, false⟩ (addressed cfg seg)

/-- The datagram carries the segment of an adapter with this configuration: the header is the adapter's but
for the time to live and the checksum, and the payload is the segment's. -/
structure Bears (cfg : FdAdapterConfig) (seg : TCPSegment) (d : IPv4Datagram) : Prop where
  header : ∃ ttl cksum, d.header = { envelope cfg seg with ttl, cksum }
  payload : ∃ wire, (addressed cfg seg).serialize (envelope cfg seg).pseudoCksum = .ok wire ∧
    d.payload.concatenate = wire.concatenate

/-- The bytes are those of a datagram that carries the segment. -/
def Encodes (cfg : FdAdapterConfig) (seg : TCPSegment) (packet : Bytes) : Prop :=
  ∃ d wire, Bears cfg seg d ∧ d.serialize = .ok wire ∧ wire.concatenate = packet

/-- What is read of a small segment that was written: the segment, but for its checksum. -/
theorem parse_addressed (small : seg.Small) (cfg : FdAdapterConfig) :
    ∃ wire, (addressed cfg seg).serialize (envelope cfg seg).pseudoCksum = .ok wire ∧
      20 + wire.size = (envelope cfg seg).len.toNat ∧
      ∀ buffer : Buffer, buffer.str = wire.concatenate → ∃ got,
        ({} : TCPSegment).parse buffer (envelope cfg seg).pseudoCksum = (.noError, got) ∧
          got.SameButCksum (addressed cfg seg) := by
  obtain ⟨hdoff, hsize⟩ := small
  have hfive : (addressed cfg seg).header.doff.toNat = 5 := by
    show seg.header.doff.toNat = 5
    rw [hdoff]
    rfl
  have hshort : (addressed cfg seg).payload.str.length ≤ 1000 := hsize
  have hlen : (envelope cfg seg).len.toNat =
      20 + (4 * (addressed cfg seg).header.doff.toNat + (addressed cfg seg).payload.str.length) := by
    refine @ipHeader_len seg ?_ ⟨cfg, false⟩
    show 20 + 4 * (addressed cfg seg).header.doff.toNat + (addressed cfg seg).payload.str.length ≤ 65535
    omega
  have hpseudo := (envelope cfg seg).pseudoCksum_lt
  obtain ⟨cksum, wire, hwire, hlong, hparse⟩ := @TCPSegment.parse_serialize (addressed cfg seg)
    ⟨by omega, by omega⟩ (envelope cfg seg).pseudoCksum (by omega)
  refine ⟨wire, hwire, by omega, fun buffer hstr => ?_⟩
  obtain ⟨payload, hpayload, hparsed⟩ := hparse {} buffer hstr
  exact ⟨{ header := (addressed cfg seg).header.sealWith cksum, payload }, hparsed, cksum, rfl, hpayload⟩

theorem wrap_bears (a : TCPOverIPv4Adapter) (small : seg.Small) :
    ∃ d, (a.wrapTcpInIp seg).2 = .ok d ∧ Bears a.cfg seg d := by
  obtain ⟨wire, hwire, -⟩ := parse_addressed small a.cfg
  obtain ⟨cfg, listen⟩ := a
  exact ⟨_, congrArg (Except.map _) hwire, ⟨_, _, rfl⟩, wire, hwire, rfl⟩

/-- Less time to live does not matter. -/
theorem Bears.aged (h : Bears cfg seg d) (ttl : UInt8) :
    Bears cfg seg { d with header := { d.header with ttl } } := by
  obtain ⟨⟨old, cksum, hheader⟩, hpayload⟩ := h
  refine ⟨⟨ttl, cksum, ?_⟩, hpayload⟩
  show { d.header with ttl } = _
  rw [hheader]

/-- What is written of a datagram that carries a segment is read as one that carries it. -/
theorem Bears.serialize (h : Bears cfg seg d) (small : seg.Small) :
    ∃ wire, d.serialize = .ok wire ∧ ∀ buffer : Buffer, buffer.str = wire.concatenate →
      ∃ header payload, IPv4Datagram.parse {} buffer =
          (.noError, { header, payload := BufferList.ofBuffer payload }) ∧
        Bears cfg seg { header, payload := BufferList.ofBuffer payload } := by
  obtain ⟨⟨ttl, cksum, hheader⟩, wire, hwire, hpayload⟩ := h
  obtain ⟨wire', hwire', hlong, -⟩ := parse_addressed small cfg
  obtain rfl : wire' = wire := Except.ok.inj (hwire'.symm.trans hwire)
  have hsize : d.payload.size = wire'.size := by
    rw [← d.payload.length_concatenate, hpayload, wire'.length_concatenate]
  have hfits : d.header.Fits := by
    rw [hheader]
    exact ⟨rfl, show 5 ≤ (5 : UInt8).toNat ∧ (5 : UInt8).toNat < 16 by decide,
      show (0 : UInt16).toNat < 2 ^ 13 by decide⟩
  have hlength : 4 * d.header.hlen.toNat + d.payload.size = d.header.len.toNat := by
    rw [hheader, hsize]
    exact hlong
  obtain ⟨sealed, out, hout, hparse⟩ := IPv4Datagram.parse_serialize hfits hlength
  refine ⟨out, hout, fun buffer hstr => ?_⟩
  obtain ⟨-, payload, hbytes, hparsed⟩ := hparse {} buffer hstr
  refine ⟨_, payload, hparsed, ⟨ttl, sealed, ?_⟩, wire', hwire, ?_⟩
  · show { d.header with cksum := sealed } = _
    rw [hheader]
  · rw [BufferList.concatenate_ofBuffer, hbytes, hpayload]

theorem Bears.encodes (h : Bears cfg seg d) (small : seg.Small) :
    ∃ wire, d.serialize = .ok wire ∧ Encodes cfg seg wire.concatenate := by
  obtain ⟨wire, hwire, -⟩ := h.serialize small
  exact ⟨wire, hwire, d, wire, h, hwire, rfl⟩

theorem Encodes.parse {packet : Bytes} (h : Encodes cfg seg packet) (small : seg.Small) {buffer : Buffer}
    (str : buffer.str = packet) : ∃ header payload, IPv4Datagram.parse {} buffer =
        (.noError, { header, payload := BufferList.ofBuffer payload }) ∧
      Bears cfg seg { header, payload := BufferList.ofBuffer payload } := by
  obtain ⟨d, wire, hbears, hwire, rfl⟩ := h
  obtain ⟨wire', hwire', hparse⟩ := hbears.serialize small
  obtain rfl : wire' = wire := Except.ok.inj (hwire'.symm.trans hwire)
  exact hparse buffer str

theorem alike_of_same (same : got.SameButCksum (addressed cfg seg)) : got.Alike seg := by
  obtain ⟨cksum, hheader, hpayload⟩ := same
  constructor <;> first | exact hpayload | (rw [hheader]; rfl)

/-- **What unwrapping a datagram that carries a segment can do**: nothing, or hand out a segment like it. In
that case the destination port is the adapter's; one that does not listen finds the addresses it expects,
and one that listens is the mirror image from then on. -/
theorem Bears.unwrap_cases {header : IPv4Header} {payload : Buffer}
    (h : Bears cfg seg { header, payload := BufferList.ofBuffer payload }) (small : seg.Small)
    (b : TCPOverIPv4Adapter) :
    b.unwrapTcpInIp { header, payload := BufferList.ofBuffer payload } = (b, .ok none) ∨
      ∃ b' got, b.unwrapTcpInIp { header, payload := BufferList.ofBuffer payload } = (b', .ok (some got)) ∧
        got.Alike seg ∧ cfg.destination.port = b.cfg.source.port ∧
        (b.listen = false ∧ b' = b ∧ cfg.source.ipv4Numeric = b.cfg.destination.ipv4Numeric ∨
          b.listen = true ∧ b' = ⟨cfg.mirror, false⟩) := by
  obtain ⟨⟨ttl, cksum, rfl⟩, wire, hwire, hbytes⟩ := h
  obtain ⟨wire', hwire', -, hparse⟩ := parse_addressed small cfg
  obtain rfl : wire' = wire := Except.ok.inj (hwire'.symm.trans hwire)
  obtain ⟨got, hgot, hsame⟩ := hparse payload ((BufferList.concatenate_ofBuffer payload).symm.trans hbytes)
  have hsport : got.header.sport = cfg.source.port := by
    obtain ⟨_, hheader, -⟩ := hsame
    rw [hheader]
    rfl
  have hdport : got.header.dport = cfg.destination.port := by
    obtain ⟨_, hheader, -⟩ := hsame
    rw [hheader]
    rfl
  by_cases hmis : b.Misaddressed { header := { envelope cfg seg with ttl, cksum },
                                   payload := BufferList.ofBuffer payload }
  · exact .inl (unwrap_misaddressed hmis)
  · rw [unwrap_parsed hmis hgot]
    unfold checkRelated
    rw [hdport, hsport]
    split
    · exact .inl rfl
    next hport =>
      have hport := not_not.mp hport
      split
      · exact .inl rfl
      · cases hlisten : b.listen with
        | true =>
          refine .inr ⟨⟨cfg.mirror, false⟩, got, ?_, alike_of_same hsame, hport, .inr ⟨rfl, rfl⟩⟩
          unfold accept
          dsimp only
          rw [if_pos rfl, hsport, ← hport, if_neg (not_not.mpr rfl)]
          rfl
        | false =>
          rw [if_neg Bool.false_ne_true]
          dsimp only
          split
          · exact .inl rfl
          · refine .inr ⟨b, got, rfl, alike_of_same hsame, hport, .inl ⟨rfl, rfl, ?_⟩⟩
            by_contra hsrc
            exact hmis (.inr ⟨by rw [hlisten]; exact Bool.false_ne_true, .inr hsrc⟩)

end TCPOverIPv4Adapter

/-! ## Interfaces -/

namespace NetworkInterface

variable {n n' : NetworkInterface} {Good Good' : Bytes → Prop}

/-- The datagrams that an interface has queued or keeps are good, and nothing it holds makes a call
throw. -/
structure Bearing (Good : Bytes → Prop) (n : NetworkInterface) : Prop where
  own : ∃ ip, n.ipAddress.ipv4Numeric = .ok ip
  frames : ∀ f ∈ n.ipv4Frames, Good f.payload.concatenate
  waiting : ∀ ip d, n.unknownDatagramMap.find? ip = some d →
    ∃ wire, d.serialize = .ok wire ∧ Good wire.concatenate

theorem bearing_new (Good : Bytes → Prop) (ethernetAddress : EthernetAddress) (ip : UInt32) (port : UInt16) :
    Bearing Good (new ethernetAddress (.inet ip port)) :=
  ⟨⟨ip, rfl⟩, fun _ hf => absurd hf List.not_mem_nil, fun _ _ hfind => by cases hfind⟩

theorem Bearing.sound (h : Bearing Good n) : n.Sound := by
  refine ⟨h.own, fun ip d hfind => ?_⟩
  obtain ⟨wire, hwire, -⟩ := h.waiting ip d hfind
  unfold IPv4Datagram.wellFormed
  rw [hwire]
  rfl

theorem Bearing.mono (h : Bearing Good n) (weaker : ∀ packet, Good packet → Good' packet) :
    Bearing Good' n := by
  refine ⟨h.own, fun f hf => weaker _ (h.frames f hf), fun ip d hfind => ?_⟩
  obtain ⟨wire, hwire, hgood⟩ := h.waiting ip d hfind
  exact ⟨wire, hwire, weaker _ hgood⟩

theorem Bearing.quiet (h : Bearing Good n) (sound : n'.Sound) (quiet : Quiet n n') : Bearing Good n' :=
  ⟨sound.own, fun f hf => h.frames f (quiet.frames ▸ hf),
    fun ip d hfind => h.waiting ip d (quiet.unknown ▸ hfind)⟩

/-- A datagram is sent. -/
theorem Bearing.sendPayload (h : Bearing Good n) {payload : BufferList} (good : Good payload.concatenate)
    (eaddr : EthernetAddress) : Bearing Good (n.sendPayload eaddr payload EthernetHeader.TYPE_IPv4) := by
  refine ⟨h.own, fun f hf => ?_, h.waiting⟩
  rw [ipv4Frames_sendPayload, if_pos rfl] at hf
  rcases List.mem_append.mp hf with hold | hnew
  · exact h.frames f hold
  · rw [List.mem_singleton.mp hnew]
    exact good

theorem Bearing.learn (h : Bearing Good n) (ip : UInt32) (eaddr : EthernetAddress) :
    Bearing Good (n.learn ip eaddr).1 := by
  unfold NetworkInterface.learn
  dsimp only
  generalize hlearned : NetworkInterface.mk _ _ _ _ _ _ _ = learned
  have hkept : Bearing Good learned := hlearned ▸ ⟨h.own, h.frames, h.waiting⟩
  have hunknown : learned.unknownDatagramMap = n.unknownDatagramMap := hlearned ▸ rfl
  cases hfind : n.unknownDatagramMap.find? ip with
  | none => exact hkept
  | some d =>
    obtain ⟨wire, hwire, hgood⟩ := h.waiting ip d hfind
    have hsent := hkept.sendPayload hgood eaddr
    dsimp only
    unfold sendSerialized
    rw [hwire]
    refine ⟨hsent.own, hsent.frames, fun ip' d' hfind' => ?_⟩
    have hfind' : (n.unknownDatagramMap.erase ip).find? ip' = some d' := hunknown ▸ hfind'
    by_cases hip : ip' = ip
    · rw [hip] at hfind'
      cases SortedMap.find?_erase_self.symm.trans hfind'
    · exact h.waiting ip' d' ((SortedMap.find?_erase_ne hip).symm.trans hfind')

theorem Bearing.receiveArp (h : Bearing Good n) (msg : ARPMessage) : Bearing Good (n.receiveArp msg).1 := by
  unfold NetworkInterface.receiveArp
  have hlearn := h.learn msg.senderIpAddress msg.senderEthernetAddress
  generalize n.learn msg.senderIpAddress msg.senderEthernetAddress = out at *
  obtain ⟨learned, result⟩ := out
  cases result with
  | error e => exact hlearn
  | ok _ =>
    dsimp only
    split
    · exact hlearn.learn _ _
    · split
      · exact hlearn.quiet (hlearn.sound.answer msg).sound (answer_quiet _ _)
      · exact hlearn

theorem Bearing.recvFrame (h : Bearing Good n) (frame : EthernetFrame) :
    Bearing Good (n.recvFrame frame).1 := by
  rw [recvFrame_fst]
  cases n.acceptedArp frame with
  | none => exact h
  | some msg => exact h.receiveArp msg

theorem Bearing.sendDatagram (h : Bearing Good n) {d : IPv4Datagram} {wire : BufferList}
    (serialized : d.serialize = .ok wire) (good : Good wire.concatenate) {nextHop : Address} {ip : UInt32}
    (inet : nextHop.ipv4Numeric = .ok ip) : Bearing Good (n.sendDatagram d nextHop).1 := by
  unfold NetworkInterface.sendDatagram
  rw [inet]
  dsimp only
  cases n.ipMap.find? ip with
  | some mapping =>
    dsimp only
    unfold sendSerialized
    rw [serialized]
    exact h.sendPayload good mapping.1
  | none =>
    have hkept : Bearing Good { n with unknownDatagramMap := n.unknownDatagramMap.insert ip d } := by
      refine ⟨h.own, h.frames, fun ip' d' hfind => ?_⟩
      by_cases hip : ip' = ip
      · rw [hip, SortedMap.find?_insert_self, Option.some.injEq] at hfind
        exact ⟨wire, hfind ▸ serialized, good⟩
      · rw [SortedMap.find?_insert_ne hip] at hfind
        exact h.waiting ip' d' hfind
    exact hkept.quiet (hkept.sound.broadCast inet).sound (broadCast_quiet _ _)

theorem Bearing.tick (h : Bearing Good n) (ms : Nat) : Bearing Good (n.tick ms) :=
  ⟨h.own, h.frames, h.waiting⟩

/-- What is queued may be popped. -/
theorem Bearing.pop (h : Bearing Good n) {rest : List EthernetFrame} (sub : rest ⊆ n.framesOut) :
    Bearing Good { n with framesOut := rest } := by
  refine ⟨h.own, fun f hf => ?_, h.waiting⟩
  obtain ⟨hqueued, htype⟩ := List.mem_filter.mp hf
  exact h.frames f (List.mem_filter.mpr ⟨sub hqueued, htype⟩)

/-- A datagram is handed out of a frame of its type only, and as it is parsed. -/
theorem recvFrame_some {frame : EthernetFrame} {d : IPv4Datagram}
    (h : (n.recvFrame frame).2 = .ok (some d)) : frame.header.type = EthernetHeader.TYPE_IPv4 ∧
      ∃ buffer, frame.payload.toBuffer = .ok buffer ∧ d = (IPv4Datagram.parse {} buffer).2 := by
  unfold NetworkInterface.recvFrame at h
  split at h
  · cases h
  · split at h
    next htype =>
      refine ⟨htype, ?_⟩
      cases hbuffer : frame.payload.toBuffer with
      | error e =>
        rw [hbuffer] at h
        cases h
      | ok buffer =>
        rw [hbuffer] at h
        refine ⟨buffer, rfl, ?_⟩
        dsimp only at h
        split at h
        · cases h
          rfl
        · cases h
    next =>
      exfalso
      split at h
      · cases hbuffer : frame.payload.toBuffer with
        | error e =>
          rw [hbuffer] at h
          cases h
        | ok buffer =>
          rw [hbuffer] at h
          dsimp only at h
          split at h
          · cases hresult : (n.receiveArp (ARPMessage.parse {} buffer).2).2 with
            | error e =>
              rw [hresult] at h
              cases h
            | ok _ =>
              rw [hresult] at h
              cases h
          · cases h
      · cases h

end NetworkInterface

/-! ## Routers -/

/-- What is good remains so with another time to live. -/
def Relayable (Good : Bytes → Prop) : Prop :=
  ∀ (buffer : Buffer) (ttl : UInt8), Good buffer.str → ∃ wire,
    IPv4Datagram.serialize { (IPv4Datagram.parse {} buffer).2 with
      header := { (IPv4Datagram.parse {} buffer).2.header with ttl } } = .ok wire ∧ Good wire.concatenate

/-- The datagram is good, whatever time it has to live. -/
def IPv4Datagram.GoodAnyTtl (Good : Bytes → Prop) (d : IPv4Datagram) : Prop :=
  ∀ ttl, ∃ wire, IPv4Datagram.serialize { d with header := { d.header with ttl } } = .ok wire ∧
    Good wire.concatenate

/-- What an interface of a router holds and has queued is good. -/
structure AsyncNetworkInterface.Bearing (Good : Bytes → Prop) (a : AsyncNetworkInterface) : Prop where
  net : a.net.Bearing Good
  queued : ∀ d ∈ a.datagramsOut, d.GoodAnyTtl Good

/-- The payload of a frame with a datagram is good. -/
def EthernetFrame.Bearing (Good : Bytes → Prop) (f : EthernetFrame) : Prop :=
  f.header.type = EthernetHeader.TYPE_IPv4 → Good f.payload.concatenate

variable {Good Good' : Bytes → Prop}

theorem IPv4Datagram.GoodAnyTtl.wellFormed {d : IPv4Datagram} (h : d.GoodAnyTtl Good) :
    d.wellFormed = true := by
  obtain ⟨wire, hwire, -⟩ := h d.header.ttl
  unfold IPv4Datagram.wellFormed
  rw [show d.serialize = .ok wire from hwire]
  rfl

namespace AsyncNetworkInterface

variable {a : AsyncNetworkInterface}

theorem Bearing.sound (h : a.Bearing Good) : a.Sound :=
  ⟨h.net.sound, fun d hd => .inr (h.queued d hd).wellFormed⟩

theorem Bearing.recvFrame (h : a.Bearing Good) (relayable : Relayable Good) {frame : EthernetFrame}
    (good : frame.Bearing Good) {buffer : Buffer} (piece : frame.payload.toBuffer = .ok buffer)
    (str : buffer.str = frame.payload.concatenate) :
    (a.recvFrame frame).1.Bearing Good ∧ (a.recvFrame frame).2 = .ok () := by
  obtain ⟨-, received, hok, -⟩ := h.net.sound.recvFrame piece
  have hnet := h.net.recvFrame frame
  have hparsed : ∀ d, received = some d → d.GoodAnyTtl Good := by
    rintro d rfl
    obtain ⟨htype, buffer', hbuffer, rfl⟩ := NetworkInterface.recvFrame_some hok
    obtain rfl : buffer = buffer' := Except.ok.inj (piece.symm.trans hbuffer)
    exact fun ttl => relayable buffer ttl (str ▸ good htype)
  unfold AsyncNetworkInterface.recvFrame
  generalize a.net.recvFrame frame = out at *
  obtain ⟨net, result⟩ := out
  cases hok
  refine ⟨⟨hnet, fun d hd => ?_⟩, rfl⟩
  rcases List.mem_append.mp hd with hold | hnew
  · exact h.queued d hold
  · exact hparsed d (Option.mem_toList.mp hnew)

end AsyncNetworkInterface

namespace Router

variable {r : Router}

/-- Everything in a router is good, and nothing makes a call throw. -/
structure Bearing (Good : Bytes → Prop) (r : Router) : Prop where
  sound : r.Sound
  interfaces : ∀ a ∈ r.interfaces, a.Bearing Good

/-- A router without routes. -/
theorem bearing_new {interfaces : List AsyncNetworkInterface} (some : interfaces ≠ [])
    (good : ∀ a ∈ interfaces, a.Bearing Good) : Bearing Good ⟨interfaces, []⟩ :=
  ⟨⟨List.length_pos_iff.mpr some, fun a ha => (good a ha).sound, fun _ hitem => absurd hitem List.not_mem_nil,
    fun _ hitem => absurd hitem List.not_mem_nil⟩, good⟩

theorem Bearing.addRoute (h : r.Bearing Good) (overshift routePrefix : UInt32) (prefixLength : UInt8)
    {nextHop : Option Address} (inet : ∀ hop ∈ nextHop, hop.IsInet) {i : Nat}
    (there : i < r.interfaces.length) :
    (r.addRoute overshift routePrefix prefixLength nextHop i).Bearing Good := by
  refine ⟨⟨h.sound.some_interface, h.sound.interfaces, fun item hitem => ?_, fun item hitem => ?_⟩,
    h.interfaces⟩
  · rcases List.mem_append.mp hitem with hold | hnew
    · exact h.sound.routes item hold
    · rw [List.mem_singleton.mp hnew]
      exact there
  · rcases List.mem_append.mp hitem with hold | hnew
    · exact h.sound.hops item hold
    · rw [List.mem_singleton.mp hnew]
      exact inet

theorem Bearing.set (h : r.Bearing Good) (i : Nat) {a : AsyncNetworkInterface} (ha : a.Bearing Good) :
    Bearing Good { r with interfaces := r.interfaces.set i a } := by
  refine ⟨h.sound.set i ha.sound, fun b hb => ?_⟩
  rcases List.mem_or_eq_of_mem_set hb with hold | rfl
  · exact h.interfaces b hold
  · exact ha

/-- Changing an interface to a good one keeps a router good. -/
theorem Bearing.modify (h : r.Bearing Good) (i : Nat) {f : AsyncNetworkInterface → AsyncNetworkInterface}
    (keeps : ∀ a, a.Bearing Good → (f a).Bearing Good) :
    Bearing Good { r with interfaces := r.interfaces.modify i f } := by
  have hall : ∀ a ∈ r.interfaces.modify i f, a.Bearing Good := by
    intro a ha
    obtain ⟨j, hj⟩ := List.mem_iff_getElem?.mp ha
    rw [List.getElem?_modify, Option.map_eq_map, Option.map_eq_some_iff] at hj
    obtain ⟨b, hb, rfl⟩ := hj
    have hbearing := h.interfaces b (List.mem_of_getElem? hb)
    split
    · exact keeps b hbearing
    · exact hbearing
  refine ⟨⟨?_, fun a ha => (hall a ha).sound, fun item hitem => ?_, h.sound.hops⟩, hall⟩
  · rw [List.length_modify]
    exact h.sound.some_interface
  · rw [List.length_modify]
    exact h.sound.routes item hitem

theorem Bearing.setQueue (h : r.Bearing Good) (i : Nat) {queue : List IPv4Datagram}
    (good : ∀ d ∈ queue, d.GoodAnyTtl Good) : (r.setQueue i queue).Bearing Good :=
  h.modify i fun _ ha => ⟨ha.net, good⟩

theorem Bearing.routeOneDatagram (h : r.Bearing Good) {d : IPv4Datagram} (good : d.GoodAnyTtl Good) :
    (r.routeOneDatagram d).1.Bearing Good := by
  unfold Router.routeOneDatagram
  cases hcall : r.handOff d with
  | none => exact h
  | some call =>
    obtain ⟨i, d', nextHop⟩ := call
    obtain ⟨hthere, -, ip, hinet⟩ := h.sound.handOff (.inr good.wellFormed) hcall
    obtain ⟨wire, hwire, hgood⟩ : ∃ wire, d'.serialize = .ok wire ∧ Good wire.concatenate := by
      unfold Router.handOff at hcall
      split at hcall
      · cases hcall
      · cases hcall
        exact good _
    dsimp only
    rw [List.getElem?_eq_getElem hthere]
    have ha := h.interfaces _ (List.getElem_mem hthere)
    exact h.set i ⟨ha.net.sendDatagram hwire hgood hinet, ha.queued⟩

theorem Bearing.routeQueue (h : r.Bearing Good) (i : Nat) {queue : List IPv4Datagram}
    (good : ∀ d ∈ queue, d.GoodAnyTtl Good) : (Router.routeQueue i queue r).1.Bearing Good := by
  induction queue generalizing r with
  | nil => exact h
  | cons d rest ih =>
    obtain ⟨hhead, hrest⟩ := List.forall_mem_cons.mp good
    have hrouted := h.routeOneDatagram hhead
    obtain ⟨⟨-, -, hok⟩, -⟩ := h.sound.routeOneDatagram (.inr hhead.wellFormed)
    rw [Router.routeQueue]
    generalize r.routeOneDatagram d = out at *
    obtain ⟨r', d', result⟩ := out
    cases hok
    exact ih (hrouted.setQueue i hrest) hrest

theorem Bearing.routeFrom (h : r.Bearing Good) (is : List Nat) :
    (Router.routeFrom is r).1.Bearing Good := by
  induction is generalizing r with
  | nil => exact h
  | cons i is ih =>
    have hqueued : ∀ d ∈ r.queue i, d.GoodAnyTtl Good := by
      unfold queue
      cases hget : r.interfaces[i]? with
      | none => exact fun _ hd => absurd hd List.not_mem_nil
      | some a => exact (h.interfaces a (List.mem_of_getElem? hget)).queued
    have hrouted := h.routeQueue i hqueued
    unfold queue at hrouted
    rw [Router.routeFrom]
    generalize Router.routeQueue i _ r = out at *
    obtain ⟨r', result⟩ := out
    cases result with
    | error e => exact hrouted
    | ok _ => exact ih hrouted

/-- **Routing sends on what is good.** -/
theorem Bearing.route (h : r.Bearing Good) : r.route.1.Bearing Good := h.routeFrom _

end Router

end Sponge
