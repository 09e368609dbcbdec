import Sponge.Laws.Net.Transit
import Sponge.Laws.Util.EventLoop
import Sponge.Net.FdAdapter

/-!
# Laws.Net.FdAdapter — what may be relied on, whatever the adapter

`LawfulFdAdapter` is the contract between a socket and its adapter. An adapter that is given small segments
only ever fails because the kernel does, whatever it reads. What it has written conveys nothing but those
segments: whoever reads a packet of it, with whatever configuration, makes a segment of it that is like one
of them, or nothing.

The four adapters fulfil it. For the one on Ethernet `Wrote` speaks of the datagrams that wait for an
address as well, since they will be written by a later call; for the lossy one it is the contract of the
adapter under it.
-/

namespace Sponge

/-- Whichever of these adapters reads the packet makes of it a segment like one of these, or none. -/
def FdAdapter.Conveys {α : Type} [FdAdapter α] (Reader : α → Prop) (p : FdAdapter.Packet α)
    (segs : List TCPSegment) : Prop :=
  ∀ a writes a' got, Reader a → FdAdapter.read a (.ok p) writes = .ok (a', some got) →
    ∃ seg ∈ segs, got.Alike seg

/-- What a socket relies on. `Wrote a segs` says that `a` has written nothing but these segments, and that
nothing it holds makes it throw. -/
class LawfulFdAdapter (α : Type) [FdAdapter α] where
  port : α → UInt16
  Wrote : α → List TCPSegment → Prop
  wrote_mono : ∀ {a segs segs'}, Wrote a segs → segs ⊆ segs' → Wrote a segs'
  configured : ∀ {a segs} cfg, Wrote a segs → Wrote (FdAdapter.setConfig a cfg) segs
  listening : ∀ {a segs} l, Wrote a segs → Wrote (FdAdapter.setListening a l) segs
  read_ok : ∀ {a segs answer writes a' seg}, Wrote a segs →
    FdAdapter.read a answer writes = .ok (a', seg) →
    Wrote a' segs ∧ port a' = port a ∧ (FdAdapter.fd a').readCount = (FdAdapter.fd a).readCount + 1
  read_answer : ∀ {a : α} {answer writes out}, FdAdapter.read a answer writes = .ok out →
    ∃ p, answer = .ok p
  read_error : ∀ {a segs answer writes e}, Wrote a segs → FdAdapter.read a answer writes = .error e →
    e.OfKernel
  write_ok : ∀ {a segs seg writes a'}, Wrote a segs → seg.Small → FdAdapter.write a seg writes = .ok a' →
    Wrote a' (segs ++ [seg]) ∧ port a' = port a
  write_error : ∀ {a segs seg writes e}, Wrote a segs → seg.Small →
    FdAdapter.write a seg writes = .error e → e.OfKernel
  tick_ok : ∀ {a segs ms writes a'}, Wrote a segs → FdAdapter.tick a ms writes = .ok a' →
    Wrote a' segs ∧ port a' = port a
  tick_error : ∀ {a segs ms writes e}, Wrote a segs → FdAdapter.tick a ms writes = .error e → e.OfKernel
  conveys : ∀ {a segs} {p : FdAdapter.Packet α}, Wrote a segs → FdAdapter.bytes p ∈ FdAdapter.wire a →
    FdAdapter.Conveys (fun _ => True) p segs

theorem throws_ok {β : Type} {x : Except Exn β} {b : β} (h : throws x = .ok b) : x = .ok b := by
  cases x with
  | error e => cases h
  | ok b' =>
    cases h
    rfl

/-! ## Datagrams -/

namespace TCPOverIPv4Adapter

variable {a b : TCPOverIPv4Adapter} {seg got : TCPSegment}

/-- The bytes are those of a datagram that carries the segment, from whatever configuration. -/
def Carried (seg : TCPSegment) (packet : Bytes) : Prop := seg.Small ∧ ∃ cfg, Encodes cfg seg packet

/-- Whoever unwraps it finds a segment like this one in it, if any. -/
theorem Carried.alike {packet : Bytes} (h : Carried seg packet) {buffer : Buffer} (str : buffer.str = packet)
    (unwrapped : (b.unwrapTcpInIp (IPv4Datagram.parse {} buffer).2).2 = .ok (some got)) : got.Alike seg := by
  obtain ⟨hsmall, cfg, hencodes⟩ := h
  obtain ⟨header, payload, hparse, hbears⟩ := hencodes.parse hsmall str
  rw [hparse] at unwrapped
  rcases hbears.unwrap_cases hsmall b with hnone | ⟨b', out, hout, halike, -⟩
  · rw [hnone] at unwrapped
    cases unwrapped
  · rw [hout] at unwrapped
    cases unwrapped
    exact halike

theorem wrap_carried (a : TCPOverIPv4Adapter) (small : seg.Small) :
    ∃ d wire, (a.wrapTcpInIp seg).2 = .ok d ∧ d.serialize = .ok wire ∧ Carried seg wire.concatenate := by
  obtain ⟨d, hwrap, hbears⟩ := a.wrap_bears small
  obtain ⟨wire, hwire, hencodes⟩ := hbears.encodes small
  exact ⟨d, wire, hwrap, hwire, small, a.cfg, hencodes⟩

/-- The last checks of a segment keep the port. -/
theorem checkRelated_port (a : TCPOverIPv4Adapter) (header : IPv4Header) (seg : TCPSegment) :
    (a.checkRelated header seg).1.cfg.source.port = a.cfg.source.port := by
  unfold checkRelated
  split
  · rfl
  · split
    · rfl
    · have hport : (if a.listen then a.accept header seg else a).cfg.source.port = a.cfg.source.port := by
        split <;> rfl
      dsimp only
      generalize (if a.listen then a.accept header seg else a) = admitted at *
      split <;> exact hport

/-- Unwrapping a datagram in one buffer does not throw, and the adapter keeps its port. -/
theorem unwrap_ok (a : TCPOverIPv4Adapter) (header : IPv4Header) (payload : Buffer) :
    ∃ a' seg, a.unwrapTcpInIp { header, payload := BufferList.ofBuffer payload } = (a', .ok seg) ∧
      a'.cfg.source.port = a.cfg.source.port := by
  by_cases hmis : a.Misaddressed { header, payload := BufferList.ofBuffer payload }
  · exact ⟨a, none, unwrap_misaddressed hmis, rfl⟩
  · rw [unwrap_addressed hmis]
    show ∃ a' seg,
      (if (({} : TCPSegment).parse payload header.pseudoCksum).1 ≠ .noError then _ else _) = _ ∧ _
    split
    · exact ⟨a, none, rfl, rfl⟩
    · exact ⟨_, _, rfl, a.checkRelated_port header _⟩

/-- What is parsed is in one buffer. -/
theorem unwrap_parse (a : TCPOverIPv4Adapter) (buffer : Buffer) :
    ∃ a' seg, a.unwrapTcpInIp (IPv4Datagram.parse {} buffer).2 = (a', .ok seg) ∧
      a'.cfg.source.port = a.cfg.source.port :=
  a.unwrap_ok (IPv4Datagram.parse {} buffer).2.header (IPv4Header.parse {} (NetParser.new buffer)).2.buffer

end TCPOverIPv4Adapter

/-! ## IPv4 on a TUN device -/

namespace TCPOverIPv4OverTunFdAdapter

open TCPOverIPv4Adapter (Carried)

variable {a a' : TCPOverIPv4OverTunFdAdapter} {answer : Answer Bytes} {seg : TCPSegment}
  {writes : Nat → Answer Unit} {e : Failure}

/-- What a read can do: hand out nothing, or what is unwrapped from the packet. -/
theorem read_cases {out : Option TCPSegment} (h : a.read answer = .ok (a', out)) :
    a'.tun.packets = a.tun.packets ∧ a'.cfg.source.port = a.cfg.source.port ∧
      a'.tun.readCount = a.tun.readCount + 1 ∧
      ∀ packet got, answer = .ok packet → out = some got →
        (a.unwrapTcpInIp (IPv4Datagram.parse {} (Buffer.ofString packet)).2).2 = .ok (some got) := by
  obtain ⟨⟨tun, packet⟩, hread, h⟩ := bind_ok h
  obtain ⟨-, rfl⟩ := FileDescriptor.read_ok hread
  have hanswer := FileDescriptor.read_data hread
  dsimp only at h
  split at h
  · cases h
    exact ⟨rfl, rfl, rfl, fun _ _ _ hc => by cases hc⟩
  · obtain ⟨unwrapped, seg, hunwrap, hport⟩ := a.unwrap_parse (Buffer.ofString packet)
    rw [hunwrap] at h
    cases h
    refine ⟨rfl, hport, rfl, fun packet' got hpacket hgot => ?_⟩
    cases hanswer.symm.trans hpacket
    rw [hunwrap, hgot]

/-- A read fails only where the kernel does. -/
theorem read_error (h : a.read answer = .error e) : e.OfKernel := by
  rcases bind_error h with hread | ⟨⟨tun, packet⟩, hread, h⟩
  · exact FileDescriptor.read_error hread
  · dsimp only at h
    split at h
    · cases h
    · obtain ⟨unwrapped, seg, hunwrap, -⟩ := a.unwrap_parse (Buffer.ofString packet)
      rw [hunwrap] at h
      cases h

/-- What a write of a small segment does: it writes a packet that carries it. -/
theorem write_eq (a : TCPOverIPv4OverTunFdAdapter) (small : seg.Small) (writes : Nat → Answer Unit) :
    ∃ packet, Carried seg packet ∧
      a.write seg writes = (a.tun.send packet (writes 0)).map fun tun => { a with tun } := by
  obtain ⟨d, wire, hwrap, hwire, hcarried⟩ := a.wrap_carried small
  refine ⟨wire.concatenate, hcarried, ?_⟩
  unfold write
  rw [hwrap]
  show (throws d.serialize >>= _) = _
  rw [hwire]
  rfl

instance : LawfulFdAdapter TCPOverIPv4OverTunFdAdapter where
  port := fun a => a.cfg.source.port
  Wrote := fun a segs => ∀ packet ∈ a.tun.packets, ∃ seg ∈ segs, Carried seg packet
  wrote_mono := fun h sub packet hpacket => (h packet hpacket).imp fun _ hseg => ⟨sub hseg.1, hseg.2⟩
  configured := fun _ h => h
  listening := fun _ h => h
  read_ok := by
    intro a segs answer writes a' seg h hread
    obtain ⟨hpackets, hport, hcount, -⟩ := read_cases hread
    exact ⟨fun packet hpacket => h packet (hpackets ▸ hpacket), hport, hcount⟩
  read_answer := by
    intro a answer writes out hread
    obtain ⟨⟨tun, packet⟩, htun, -⟩ := bind_ok hread
    exact ⟨packet, FileDescriptor.read_data htun⟩
  read_error := fun _ hread => read_error hread
  write_ok := by
    intro a segs seg writes a' h small hwrite
    obtain ⟨packet, hcarried, heq⟩ := a.write_eq small writes
    cases hsend : a.tun.send packet (writes 0) with
    | error e =>
      rw [hsend] at heq
      cases heq.symm.trans hwrite
    | ok tun =>
      rw [hsend] at heq
      cases heq.symm.trans hwrite
      rw [FileDescriptor.send_ok hsend]
      refine ⟨fun sent hsent => ?_, rfl⟩
      rcases List.mem_append.mp hsent with hold | hnew
      · exact (h sent hold).imp fun _ hseg => ⟨List.mem_append_left _ hseg.1, hseg.2⟩
      · rw [List.mem_singleton.mp hnew]
        exact ⟨seg, List.mem_append_right _ (List.mem_singleton_self seg), hcarried⟩
  write_error := by
    intro a segs seg writes e h small hwrite
    obtain ⟨packet, -, heq⟩ := a.write_eq small writes
    cases hsend : a.tun.send packet (writes 0) with
    | error e' =>
      rw [hsend] at heq
      cases heq.symm.trans hwrite
      exact FileDescriptor.send_error hsend
    | ok tun =>
      rw [hsend] at heq
      cases heq.symm.trans hwrite
  tick_ok := by
    intro a segs ms writes a' h htick
    cases htick
    exact ⟨h, rfl⟩
  tick_error := fun _ htick => by cases htick
  conveys := by
    intro a segs p h hmem b writes b' got _ hread
    obtain ⟨seg, hseg, hcarried⟩ := h p hmem
    obtain ⟨-, -, -, hgot⟩ := read_cases hread
    exact ⟨seg, hseg, hcarried.alike (Buffer.str_ofString p) (hgot p got rfl rfl)⟩

end TCPOverIPv4OverTunFdAdapter

/-! ## UDP -/

theorem UDPSocket.recv_ok {s s' : UDPSocket} {mtu : Nat} {answer : Answer (InetAddress × Bytes)}
    {datagram : InetAddress × Bytes} (h : s.recv mtu answer = .ok (s', datagram)) :
    answer = .ok datagram ∧ s' = { s with fd := s.fd.registerRead } := by
  obtain ⟨got, hcall, hrest⟩ := bind_ok h
  split at hrest
  · cases hrest
  · cases hrest
    cases answer with
    | error errno => cases hcall
    | ok value => exact ⟨by rw [Except.ok.inj hcall], rfl⟩

theorem UDPSocket.recv_error {s : UDPSocket} {mtu : Nat} {answer : Answer (InetAddress × Bytes)}
    {e : Failure} (h : s.recv mtu answer = .error e) : e.OfKernel := by
  rcases bind_error h with hcall | ⟨got, _, hrest⟩
  · exact systemCall_error hcall
  · split at hrest
    · cases hrest
      exact .oversized
    · cases hrest

theorem UDPSocket.sendto_ok {s s' : UDPSocket} {destination : InetAddress} {payload : Bytes}
    {answer : Answer Unit} (h : s.sendto destination payload answer = .ok s') :
    s' = { fd := s.fd.registerWrite, sent := s.sent ++ [(destination, payload)] } := by
  obtain ⟨-, -, hdone⟩ := bind_ok h
  cases hdone
  rfl

theorem UDPSocket.sendto_error {s : UDPSocket} {destination : InetAddress} {payload : Bytes}
    {answer : Answer Unit} {e : Failure} (h : s.sendto destination payload answer = .error e) :
    e.OfKernel := by
  rcases bind_error h with hcall | ⟨-, -, hdone⟩
  · exact systemCall_error hcall
  · cases hdone

namespace TCPOverUDPSocketAdapter

variable {a a' : TCPOverUDPSocketAdapter} {answer : Answer (InetAddress × Bytes)} {seg : TCPSegment}
  {writes : Nat → Answer Unit} {e : Failure}

/-- Whoever parses these bytes finds a segment like this one in them, if any. -/
def Borne (seg : TCPSegment) (payload : Bytes) : Prop :=
  ∀ (buffer : Buffer) (got : TCPSegment), buffer.str = payload →
    ({} : TCPSegment).parse buffer 0 = (.noError, got) → got.Alike seg

/-- What a read can do: hand out nothing, or the segment in the payload. -/
theorem read_cases {out : Option TCPSegment} (h : a.read answer = .ok (a', out)) :
    a'.sock.sent = a.sock.sent ∧ a'.cfg.source.port = a.cfg.source.port ∧
      a'.sock.fd.readCount = a.sock.fd.readCount + 1 ∧
      ∀ datagram got, answer = .ok datagram → out = some got →
        ({} : TCPSegment).parse (Buffer.ofString datagram.2) 0 = (.noError, got) := by
  obtain ⟨⟨sock, source, payload⟩, hrecv, h⟩ := bind_ok h
  obtain ⟨rfl, rfl⟩ := UDPSocket.recv_ok hrecv
  dsimp only at h
  split at h
  · cases h
    exact ⟨rfl, rfl, rfl, fun _ _ _ hc => by cases hc⟩
  · split at h
    · cases h
      exact ⟨rfl, rfl, rfl, fun _ _ _ hc => by cases hc⟩
    next hgood =>
      have hparsed : ∀ (datagram : InetAddress × Bytes) got,
          (.ok (source, payload) : Answer _) = .ok datagram →
          some (({} : TCPSegment).parse (Buffer.ofString payload) 0).2 = some got →
          ({} : TCPSegment).parse (Buffer.ofString datagram.2) 0 = (.noError, got) := by
        intro datagram got hdatagram hgot
        cases hdatagram
        cases hgot
        exact Prod.ext (not_not.mp hgood) rfl
      split at h
      · split at h
        · cases h
          exact ⟨rfl, rfl, rfl, hparsed⟩
        · cases h
          exact ⟨rfl, rfl, rfl, fun _ _ _ hc => by cases hc⟩
      · cases h
        exact ⟨rfl, rfl, rfl, hparsed⟩

theorem read_error (h : a.read answer = .error e) : e.OfKernel := by
  rcases bind_error h with hrecv | ⟨⟨sock, source, payload⟩, _, h⟩
  · exact UDPSocket.recv_error hrecv
  · exfalso
    dsimp only at h
    split at h
    · cases h
    · split at h
      · cases h
      · split at h
        · split at h <;> cases h
        · cases h

/-- What a write of a small segment does: it sends a payload that bears it. -/
theorem write_eq (a : TCPOverUDPSocketAdapter) (small : seg.Small) (writes : Nat → Answer Unit) :
    ∃ payload, Borne seg payload ∧ a.write seg writes =
      (a.sock.sendto a.cfg.destination payload (writes 0) >>= fun sock => .ok { a with sock }) := by
  obtain ⟨hdoff, hsize⟩ := small
  have hfive : (a.setPorts seg).header.doff.toNat = 5 := by
    show seg.header.doff.toNat = 5
    rw [hdoff]
    rfl
  have hshort : (a.setPorts seg).payload.str.length ≤ 1000 := hsize
  have hzero : (0 : UInt32).toNat = 0 := rfl
  obtain ⟨cksum, wire, hwire, -, hparse⟩ := @TCPSegment.parse_serialize (a.setPorts seg)
    ⟨by omega, by omega⟩ 0 (by omega)
  refine ⟨wire.concatenate, fun buffer got hstr hgot => ?_, ?_⟩
  · obtain ⟨payload, hpayload, hparsed⟩ := hparse {} buffer hstr
    cases hparsed.symm.trans hgot
    constructor <;> first | exact hpayload | rfl
  · unfold write
    rw [hwire]
    rfl

instance : LawfulFdAdapter TCPOverUDPSocketAdapter where
  port := fun a => a.cfg.source.port
  Wrote := fun a segs => ∀ sent ∈ a.sock.sent, ∃ seg ∈ segs, Borne seg sent.2
  wrote_mono := fun h sub sent hsent => (h sent hsent).imp fun _ hseg => ⟨sub hseg.1, hseg.2⟩
  configured := fun _ h => h
  listening := fun _ h => h
  read_ok := by
    intro a segs answer writes a' seg h hread
    obtain ⟨hsent, hport, hcount, -⟩ := read_cases hread
    exact ⟨fun sent hmem => h sent (hsent ▸ hmem), hport, hcount⟩
  read_answer := by
    intro a answer writes out hread
    obtain ⟨⟨sock, datagram⟩, hrecv, -⟩ := bind_ok hread
    exact ⟨datagram, (UDPSocket.recv_ok hrecv).1⟩
  read_error := fun _ hread => read_error hread
  write_ok := by
    intro a segs seg writes a' h small hwrite
    obtain ⟨payload, hborne, heq⟩ := a.write_eq small writes
    obtain ⟨sock, hsend, hdone⟩ := bind_ok (heq.symm.trans hwrite)
    cases hdone
    refine ⟨fun sent hsent => ?_, rfl⟩
    rw [UDPSocket.sendto_ok hsend] at hsent
    rcases List.mem_append.mp hsent with hold | hnew
    · exact (h sent hold).imp fun _ hseg => ⟨List.mem_append_left _ hseg.1, hseg.2⟩
    · rw [List.mem_singleton.mp hnew]
      exact ⟨seg, List.mem_append_right _ (List.mem_singleton_self seg), hborne⟩
  write_error := by
    intro a segs seg writes e h small hwrite
    obtain ⟨payload, -, heq⟩ := a.write_eq small writes
    rcases bind_error (heq.symm.trans hwrite) with hsend | ⟨sock, -, hdone⟩
    · exact UDPSocket.sendto_error hsend
    · cases hdone
  tick_ok := by
    intro a segs ms writes a' h htick
    cases htick
    exact ⟨h, rfl⟩
  tick_error := fun _ htick => by cases htick
  conveys := by
    intro a segs p h hmem b writes b' got _ hread
    obtain ⟨sent, hsent, hpayload⟩ := List.mem_map.mp hmem
    obtain ⟨seg, hseg, hborne⟩ := h sent hsent
    obtain ⟨-, -, -, hgot⟩ := read_cases hread
    refine ⟨seg, hseg, hborne _ got ?_ (hgot p got rfl rfl)⟩
    rw [Buffer.str_ofString]
    exact hpayload.symm

end TCPOverUDPSocketAdapter

/-! ## IPv4 in Ethernet frames on a TAP device -/

/-- **A frame is read back as it was written.** -/
theorem EthernetFrame.parse_serialize (f : EthernetFrame) {buffer : Buffer}
    (str : buffer.str = f.serialize.concatenate) :
    ∃ payload : Buffer, payload.str = f.payload.concatenate ∧
      EthernetFrame.parse {} buffer =
        (.noError, { header := f.header, payload := BufferList.ofBuffer payload }) := by
  have hbytes : buffer.str = f.header.dst.1.flatMap NetUnparser.u8 ++
      (f.header.src.1.flatMap NetUnparser.u8 ++
        (NetUnparser.u16 f.header.type ++ f.payload.concatenate)) := by
    rw [str]
    simp [EthernetFrame.serialize, EthernetHeader.serialize, BufferList.concatenate, BufferList.append,
      BufferList.empty, BufferList.ofString, BufferList.ofBuffer]
  have before := NetParser.before_new buffer
  rw [hbytes] at before
  obtain ⟨hdst, before⟩ := EthernetAddress.read_written before
  obtain ⟨hsrc, before⟩ := EthernetAddress.read_written before
  obtain ⟨htype, before⟩ := before.u16
  have hsize : ¬(NetParser.new buffer).buffer.size < EthernetHeader.LENGTH := by
    show ¬buffer.str.length < 14
    have hword : (NetUnparser.u16 f.header.type).length = 2 := rfl
    have hbyte : ∀ val, (NetUnparser.u8 val).length = 1 := fun _ => rfl
    simp [hbytes, hword, hbyte, List.length_flatMap, f.header.dst.2, f.header.src.2]
    omega
  refine ⟨_, before.str, ?_⟩
  unfold EthernetFrame.parse EthernetHeader.parse
  rw [if_neg hsize]
  dsimp only
  rw [before.good, hdst, hsrc, htype]

/-- Whoever reads a frame in these bytes reads a good one. -/
def Heard (Good : Bytes → Prop) (packet : Bytes) : Prop :=
  ∀ f, EthernetFrame.parse {} (Buffer.ofString packet) = (.noError, f) → f.Bearing Good

theorem EthernetFrame.Bearing.heard {Good : Bytes → Prop} {f : EthernetFrame} (h : f.Bearing Good) :
    Heard Good f.serialize.concatenate := by
  intro f' hf'
  obtain ⟨payload, hpayload, hparse⟩ := f.parse_serialize (Buffer.str_ofString f.serialize.concatenate)
  cases hparse.symm.trans hf'
  intro htype
  rw [BufferList.concatenate_ofBuffer, hpayload]
  exact h htype

theorem Heard.mono {Good Good' : Bytes → Prop} {packet : Bytes} (h : Heard Good packet)
    (weaker : ∀ packet, Good packet → Good' packet) : Heard Good' packet :=
  fun f hf htype => weaker _ (h f hf htype)

/-- A datagram that is handed out of a good frame is parsed from good bytes. -/
theorem Heard.datagram {Good : Bytes → Prop} {packet : Bytes} (h : Heard Good packet) {frame : EthernetFrame}
    (parsed : EthernetFrame.parse {} (Buffer.ofString packet) = (.noError, frame)) {n : NetworkInterface}
    {d : IPv4Datagram} (received : (n.recvFrame frame).2 = .ok (some d)) :
    ∃ buffer, Good buffer.str ∧ d = (IPv4Datagram.parse {} buffer).2 := by
  obtain ⟨htype, buffer, hbuffer, rfl⟩ := NetworkInterface.recvFrame_some received
  refine ⟨buffer, ?_, rfl⟩
  have hgood := h frame parsed htype
  obtain rfl : _ = frame := congrArg Prod.snd parsed
  obtain rfl : _ = buffer := Except.ok.inj hbuffer
  exact BufferList.concatenate_ofBuffer _ ▸ hgood

namespace TCPOverIPv4OverEthernetAdapter

open TCPOverIPv4Adapter (Carried Encodes)
open NetworkInterface (Bearing)

variable {a a' : TCPOverIPv4OverEthernetAdapter} {answer : Answer Bytes} {seg : TCPSegment}
  {segs : List TCPSegment} {writes : Nat → Answer Unit} {e : Failure} {tap tap' : FileDescriptor}
  {Good Good' : Bytes → Prop}

theorem sendFrames_ok {frames : List EthernetFrame} (h : sendFrames frames tap writes = .ok tap') :
    tap'.packets = tap.packets ++ frames.map (·.serialize.concatenate) ∧
      tap'.readCount = tap.readCount := by
  induction frames generalizing tap writes with
  | nil =>
    cases h
    exact ⟨(List.append_nil _).symm, rfl⟩
  | cons frame frames ih =>
    obtain ⟨sent, hsend, h⟩ := bind_ok h
    obtain ⟨hpackets, hcount⟩ := ih h
    rw [FileDescriptor.send_ok hsend] at hpackets hcount
    refine ⟨hpackets.trans ?_, hcount⟩
    rw [List.append_assoc]
    rfl

theorem sendFrames_error {frames : List EthernetFrame} (h : sendFrames frames tap writes = .error e) :
    e.OfKernel := by
  induction frames generalizing tap writes with
  | nil => cases h
  | cons frame frames ih =>
    rcases bind_error h with hsend | ⟨sent, _, h⟩
    · exact FileDescriptor.send_error hsend
    · exact ih h

/-- What the adapter may hold inside a call. -/
structure Holding (Good : Bytes → Prop) (a : TCPOverIPv4OverEthernetAdapter) : Prop where
  interface : Bearing Good a.interface
  nextHop : ∃ ip, a.nextHop.ipv4Numeric = .ok ip
  packets : ∀ packet ∈ a.tap.packets, Heard Good packet

/-- Between calls nothing is pending. -/
structure Wrote (Good : Bytes → Prop) (a : TCPOverIPv4OverEthernetAdapter) : Prop where
  holding : Holding Good a
  pending : a.interface.framesOut = []

theorem Holding.mono (h : Holding Good a) (weaker : ∀ packet, Good packet → Good' packet) :
    Holding Good' a :=
  ⟨h.interface.mono weaker, h.nextHop, fun packet hpacket => (h.packets packet hpacket).mono weaker⟩

/-- `send_pending` writes what is pending. -/
theorem Holding.sendPending (h : Holding Good a) (sent : a.sendPending writes = .ok a') :
    a'.Wrote Good ∧ a'.toTCPOverIPv4Adapter = a.toTCPOverIPv4Adapter ∧
      a'.tap.readCount = a.tap.readCount := by
  obtain ⟨tap, hframes, hdone⟩ := bind_ok sent
  cases hdone
  obtain ⟨hpackets, hcount⟩ := sendFrames_ok hframes
  refine ⟨⟨⟨h.interface.pop (List.nil_subset _), h.nextHop, fun packet hpacket => ?_⟩, rfl⟩, rfl, hcount⟩
  rw [hpackets] at hpacket
  rcases List.mem_append.mp hpacket with hold | hnew
  · exact h.packets packet hold
  · obtain ⟨f, hf, rfl⟩ := List.mem_map.mp hnew
    refine EthernetFrame.Bearing.heard fun htype => h.interface.frames f ?_
    exact List.mem_filter.mpr ⟨hf, decide_eq_true htype⟩

theorem sendPending_error (failed : a.sendPending writes = .error e) : e.OfKernel := by
  rcases bind_error failed with hframes | ⟨tap, _, hdone⟩
  · exact sendFrames_error hframes
  · cases hdone

/-- A fresh adapter has written a frame that carries nothing. -/
theorem wrote_new (Good : Bytes → Prop) {ethAddress : EthernetAddress} {ip hop : UInt32}
    {port port' : UInt16} (fresh : tap.packets = []) {answer : Answer Unit}
    (made : new tap ethAddress (.inet ip port) (.inet hop port') answer = .ok a) : a.Wrote Good := by
  obtain ⟨sent, hsend, hdone⟩ := bind_ok made
  cases hdone
  refine ⟨⟨NetworkInterface.bearing_new Good ethAddress ip port, ⟨hop, rfl⟩, fun packet hpacket => ?_⟩, rfl⟩
  rw [FileDescriptor.send_ok hsend] at hpacket
  dsimp only at hpacket
  rw [fresh, List.nil_append] at hpacket
  rw [List.mem_singleton.mp hpacket]
  exact EthernetFrame.Bearing.heard fun htype => absurd htype (by decide)

/-- What a read can do: hand out nothing, or what is unwrapped from the datagram of the frame. -/
theorem read_cases {out : Option TCPSegment} (called : a.read answer writes = .ok (a', out)) :
    ∃ packet tap, a.tap.read SIZE_MAX answer = .ok (tap, packet) ∧
      (out = none ∧ a' = { a with tap } ∨
        ∃ frame received b, EthernetFrame.parse {} (Buffer.ofString packet) = (.noError, frame) ∧
          (a.interface.recvFrame frame).2 = .ok received ∧
          { a with tap, interface := (a.interface.recvFrame frame).1 }.sendPending writes = .ok b ∧
          (out = none ∧ a' = b ∨ ∃ d, received = some d ∧ (b.unwrapTcpInIp d).2 = .ok out ∧
            a' = { b with toTCPOverIPv4Adapter := (b.unwrapTcpInIp d).1 })) := by
  obtain ⟨⟨tap, packet⟩, hread, h⟩ := bind_ok called
  refine ⟨packet, tap, hread, ?_⟩
  dsimp only at h
  split at h
  · cases h
    exact .inl ⟨rfl, rfl⟩
  next hgood =>
    obtain ⟨received, hreceived, h⟩ := bind_ok h
    obtain ⟨b, hpending, h⟩ := bind_ok h
    refine .inr ⟨_, received, b, Prod.ext (not_not.mp hgood) rfl, throws_ok hreceived, hpending, ?_⟩
    cases received with
    | none =>
      cases h
      exact .inl ⟨rfl, rfl⟩
    | some d =>
      obtain ⟨seg, hseg, h⟩ := bind_ok h
      cases h
      exact .inr ⟨d, rfl, throws_ok hseg, rfl⟩

/-- What a frame that was read makes of the adapter, before the answers to it are sent. -/
theorem Wrote.received (h : a.Wrote Good) {packet : Bytes}
    (read : a.tap.read SIZE_MAX answer = .ok (tap, packet)) (frame : EthernetFrame) :
    Holding Good { a with tap, interface := (a.interface.recvFrame frame).1 } := by
  obtain ⟨-, rfl⟩ := FileDescriptor.read_ok read
  exact ⟨h.holding.interface.recvFrame frame, h.holding.nextHop, h.holding.packets⟩

theorem Wrote.read_ok (h : a.Wrote Good) {out : Option TCPSegment}
    (called : a.read answer writes = .ok (a', out)) :
    a'.Wrote Good ∧ a'.cfg.source.port = a.cfg.source.port ∧ a'.tap.readCount = a.tap.readCount + 1 := by
  obtain ⟨packet, tap, hread, ⟨-, rfl⟩ | ⟨frame, received, b, -, hreceived, hpending, hout⟩⟩ :=
    read_cases called
  · obtain ⟨-, rfl⟩ := FileDescriptor.read_ok hread
    exact ⟨⟨⟨h.holding.interface, h.holding.nextHop, h.holding.packets⟩, h.pending⟩, rfl, rfl⟩
  · obtain ⟨hwrote, hbase, hcount⟩ := (h.received hread _).sendPending hpending
    have hcount : b.tap.readCount = a.tap.readCount + 1 := by
      obtain ⟨-, rfl⟩ := FileDescriptor.read_ok hread
      exact hcount
    have hport : b.cfg.source.port = a.cfg.source.port := by rw [hbase]
    rcases hout with ⟨-, rfl⟩ | ⟨d, rfl, -, rfl⟩
    · exact ⟨hwrote, hport, hcount⟩
    · obtain ⟨-, buffer, -, rfl⟩ := NetworkInterface.recvFrame_some hreceived
      obtain ⟨unwrapped, seg, hunwrap, hsame⟩ := b.unwrap_parse buffer
      refine ⟨⟨⟨hwrote.holding.interface, hwrote.holding.nextHop, hwrote.holding.packets⟩,
        hwrote.pending⟩, ?_, hcount⟩
      rw [hunwrap]
      exact hsame.trans hport

theorem Wrote.read_error (h : a.Wrote Good) (failed : a.read answer writes = .error e) : e.OfKernel := by
  rcases bind_error failed with hread | ⟨⟨tap, packet⟩, hread, failed⟩
  · exact FileDescriptor.read_error hread
  · dsimp only at failed
    split at failed
    · cases failed
    · obtain ⟨-, received, hreceived, hparsed⟩ := h.holding.interface.sound.recvFrame
        (show (EthernetFrame.parse {} (Buffer.ofString packet)).2.payload.toBuffer = .ok _ from rfl)
      rw [hreceived] at failed
      change (sendPending _ writes >>= _) = _ at failed
      rcases bind_error failed with hpending | ⟨b, _, failed⟩
      · exact sendPending_error hpending
      · cases received with
        | none => cases failed
        | some d =>
          obtain ⟨-, -, -, rfl⟩ := hparsed d rfl
          obtain ⟨unwrapped, seg, hunwrap, -⟩ := b.unwrap_parse
            (EthernetHeader.parse {} (NetParser.new (Buffer.ofString packet))).2.buffer
          dsimp only at failed
          rw [hunwrap] at failed
          cases failed

/-- What a write of a small segment does: the interface sends or keeps a datagram, and what is pending is
written. -/
theorem Wrote.write_eq (h : a.Wrote Good) (small : seg.Small)
    (good : ∀ packet, Encodes a.cfg seg packet → Good packet) (writes : Nat → Answer Unit) :
    ∃ interface, Holding Good { a with interface } ∧
      a.write seg writes = { a with interface }.sendPending writes := by
  obtain ⟨d, hwrap, hbears⟩ := a.wrap_bears small
  obtain ⟨wire, hwire, hencodes⟩ := hbears.encodes small
  obtain ⟨ip, hip⟩ := h.holding.nextHop
  have hgood : d.wellFormed = true := by
    unfold IPv4Datagram.wellFormed
    rw [hwire]
    rfl
  obtain ⟨-, u, hreturned⟩ := h.holding.interface.sound.sendDatagram hgood hip
  refine ⟨(a.interface.sendDatagram d a.nextHop).1,
    ⟨h.holding.interface.sendDatagram hwire (good _ hencodes) hip, h.holding.nextHop, h.holding.packets⟩, ?_⟩
  unfold write
  rw [hwrap]
  show (throws (a.interface.sendDatagram d a.nextHop).2 >>= _) = _
  rw [hreturned]
  rfl

theorem Wrote.write_ok (h : a.Wrote Good) (small : seg.Small)
    (good : ∀ packet, Encodes a.cfg seg packet → Good packet) (called : a.write seg writes = .ok a') :
    a'.Wrote Good ∧ a'.toTCPOverIPv4Adapter = a.toTCPOverIPv4Adapter := by
  obtain ⟨interface, hholding, heq⟩ := h.write_eq small good writes
  obtain ⟨hwrote, hbase, -⟩ := hholding.sendPending (heq.symm.trans called)
  exact ⟨hwrote, hbase⟩

theorem Wrote.tick_ok (h : a.Wrote Good) {ms : Nat} (called : a.tick ms writes = .ok a') :
    a'.Wrote Good ∧ a'.toTCPOverIPv4Adapter = a.toTCPOverIPv4Adapter := by
  have hholding : Holding Good { a with interface := a.interface.tick ms } :=
    ⟨h.holding.interface.tick ms, h.holding.nextHop, h.holding.packets⟩
  obtain ⟨hwrote, hbase, -⟩ := hholding.sendPending called
  exact ⟨hwrote, hbase⟩

/-- The bytes carry one of these segments. -/
def OneOf (segs : List TCPSegment) (packet : Bytes) : Prop := ∃ seg ∈ segs, Carried seg packet

theorem OneOf.mono {packet : Bytes} (h : OneOf segs packet) {segs' : List TCPSegment} (sub : segs ⊆ segs') :
    OneOf segs' packet :=
  h.imp fun _ hseg => ⟨sub hseg.1, hseg.2⟩

theorem Wrote.mono (h : a.Wrote Good) (weaker : ∀ packet, Good packet → Good' packet) : a.Wrote Good' :=
  ⟨h.holding.mono weaker, h.pending⟩

instance : LawfulFdAdapter TCPOverIPv4OverEthernetAdapter where
  port := fun a => a.cfg.source.port
  Wrote := fun a segs => a.Wrote (OneOf segs)
  wrote_mono := fun h sub => h.mono fun _ hone => hone.mono sub
  configured := fun _ h => ⟨⟨h.holding.interface, h.holding.nextHop, h.holding.packets⟩, h.pending⟩
  listening := fun _ h => ⟨⟨h.holding.interface, h.holding.nextHop, h.holding.packets⟩, h.pending⟩
  read_ok := fun h called => h.read_ok called
  read_answer := by
    intro a answer writes out called
    obtain ⟨⟨tap, packet⟩, htap, -⟩ := bind_ok called
    exact ⟨packet, FileDescriptor.read_data htap⟩
  read_error := fun h failed => h.read_error failed
  write_ok := by
    intro a segs seg writes a' h small called
    obtain ⟨hwrote, hbase⟩ := (h.mono fun _ hone => hone.mono (List.subset_append_left segs [seg])).write_ok
      small (fun packet hencodes =>
        ⟨seg, List.mem_append_right _ (List.mem_singleton_self seg), small, a.cfg, hencodes⟩) called
    exact ⟨hwrote, by rw [hbase]⟩
  write_error := by
    intro a segs seg writes e h small failed
    have hany : a.Wrote fun _ => True := h.mono fun _ _ => trivial
    obtain ⟨interface, -, heq⟩ := hany.write_eq small (fun _ _ => trivial) writes
    exact sendPending_error (heq.symm.trans failed)
  tick_ok := by
    intro a segs ms writes a' h called
    obtain ⟨hwrote, hbase⟩ := h.tick_ok called
    exact ⟨hwrote, by rw [hbase]⟩
  tick_error := fun _ failed => sendPending_error failed
  conveys := by
    intro a segs p h hmem b writes b' got _ called
    obtain ⟨packet, tap, hread, ⟨hc, -⟩ | ⟨frame, received, pending, hframe, hreceived, -, hout⟩⟩ :=
      read_cases called
    · cases hc
    · cases FileDescriptor.read_data hread
      rcases hout with ⟨hc, -⟩ | ⟨d, rfl, hgot, -⟩
      · cases hc
      · obtain ⟨buffer, ⟨seg, hseg, hcarried⟩, rfl⟩ := (h.holding.packets p hmem).datagram hframe hreceived
        exact ⟨seg, hseg, hcarried.alike rfl hgot⟩

end TCPOverIPv4OverEthernetAdapter

/-! ## Losing some -/

namespace LossyFdAdapter

theorem shouldDrop_adapter {α : Type} (a : LossyFdAdapter α) (uplink : Bool) :
    (a.shouldDrop uplink).2.adapter = a.adapter := by
  unfold shouldDrop
  dsimp only
  generalize (if uplink then a.lossRateUp else a.lossRateDn) = loss
  split <;> rfl

variable {α : Type} [FdAdapter α] {a a' : LossyFdAdapter α}

theorem read_cases {answer : Answer (FdAdapter.Packet α)} {writes : Nat → Answer Unit}
    {out : Option TCPSegment} (h : a.read answer writes = .ok (a', out)) :
    ∃ out', FdAdapter.read a.adapter answer writes = .ok (a'.adapter, out') ∧ (out = none ∨ out = out') := by
  obtain ⟨⟨adapter, ret⟩, hread, h⟩ := bind_ok h
  cases h
  refine ⟨ret, ?_, ?_⟩
  · rw [shouldDrop_adapter]
    exact hread
  · split
    · exact .inl rfl
    · exact .inr rfl

theorem write_cases (a : LossyFdAdapter α) (seg : TCPSegment) (writes : Nat → Answer Unit) :
    (∃ a', a.write seg writes = .ok a' ∧ a'.adapter = a.adapter) ∨ ∃ a₀ : LossyFdAdapter α,
      a.write seg writes =
        (FdAdapter.write a.adapter seg writes).map fun adapter => { a₀ with adapter } := by
  unfold write
  dsimp only
  split
  · exact .inl ⟨_, rfl, a.shouldDrop_adapter true⟩
  · rw [shouldDrop_adapter]
    exact .inr ⟨(a.shouldDrop true).2, rfl⟩

instance [LawfulFdAdapter α] : LawfulFdAdapter (LossyFdAdapter α) where
  port := fun a => LawfulFdAdapter.port a.adapter
  Wrote := fun a segs => LawfulFdAdapter.Wrote a.adapter segs
  wrote_mono := LawfulFdAdapter.wrote_mono
  configured := LawfulFdAdapter.configured
  listening := LawfulFdAdapter.listening
  read_ok := by
    intro a segs answer writes a' seg h hread
    obtain ⟨out, hread, -⟩ := read_cases hread
    exact LawfulFdAdapter.read_ok h hread
  read_answer := by
    intro a answer writes out hread
    obtain ⟨_, hunder, -⟩ := bind_ok hread
    exact LawfulFdAdapter.read_answer (α := α) hunder
  read_error := by
    intro a segs answer writes e h hread
    rcases bind_error hread with hread | ⟨_, _, hread⟩
    · exact LawfulFdAdapter.read_error h hread
    · cases hread
  write_ok := by
    intro a segs seg writes a' h small hwrite
    rcases a.write_cases seg writes with ⟨kept, heq, hkept⟩ | ⟨a₀, heq⟩
    · cases heq.symm.trans hwrite
      exact ⟨hkept ▸ LawfulFdAdapter.wrote_mono h (List.subset_append_left _ _), by rw [hkept]⟩
    · cases hunder : FdAdapter.write a.adapter seg writes with
      | error e =>
        rw [hunder] at heq
        cases heq.symm.trans hwrite
      | ok adapter =>
        rw [hunder] at heq
        cases heq.symm.trans hwrite
        exact LawfulFdAdapter.write_ok h small hunder
  write_error := by
    intro a segs seg writes e h small hwrite
    rcases a.write_cases seg writes with ⟨kept, heq, hkept⟩ | ⟨a₀, heq⟩
    · cases heq.symm.trans hwrite
    · cases hunder : FdAdapter.write a.adapter seg writes with
      | error e' =>
        rw [hunder] at heq
        cases heq.symm.trans hwrite
        exact LawfulFdAdapter.write_error h small hunder
      | ok adapter =>
        rw [hunder] at heq
        cases heq.symm.trans hwrite
  tick_ok := by
    intro a segs ms writes a' h htick
    obtain ⟨adapter, hunder, htick⟩ := bind_ok htick
    cases htick
    exact LawfulFdAdapter.tick_ok h hunder
  tick_error := by
    intro a segs ms writes e h htick
    rcases bind_error htick with hunder | ⟨_, _, htick⟩
    · exact LawfulFdAdapter.tick_error h hunder
    · cases htick
  conveys := by
    intro a segs p h hmem b writes b' got _ hread
    obtain ⟨out, hunder, hout⟩ := read_cases hread
    rcases hout with hc | rfl
    · cases hc
    · exact LawfulFdAdapter.conveys h hmem b.adapter writes b'.adapter got trivial hunder

end LossyFdAdapter

end Sponge
