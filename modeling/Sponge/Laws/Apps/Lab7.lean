import Sponge.Laws.Apps.Bouncer
import Sponge.Laws.Apps.NetworkThread
import Sponge.Laws.Tcp.SocketPair

/-!
# Laws.Apps.Lab7 — a client, a server and a bouncer

Two programs, each a socket with its interface, a router and a socket on the Internet, and the program that
bounces what they send to each other. The whole refines two connections (`Setup.Refines`).

Everything on its way is followed by one predicate (`Traffic`): an IPv4 datagram, on a wire, in a queue or
waiting for an address, carries a segment of one of the two sockets, in the bytes that its adapter wrote but
for the time to live and the checksum, or it is of another protocol. The routers keep that whatever their
routes are. That a socket does not take one of its own segments for one of the peer's is a matter of the
addresses (`Placed.unwrap`).

ARP messages, datagrams of other protocols, and packets that hold no datagram may come from anywhere. A
datagram whose header is malformed may not: a router throws when it sends it on.
-/

namespace Sponge

namespace Lab7

open TCPOverIPv4Adapter (Bears Encodes)

variable {c : Choices} {side : Side} {listen listen' : Bool} {segs segs' : List TCPSegment}
  {packet : Bytes}

/-! ## What is on its way -/

/-- The addresses that a socket puts on its segments. The one that listens has none to send to, until it
learns it from the first segment. -/
def Uses (c : Choices) : Side → Bool → FdAdapterConfig → Prop
  | .left, _, cfg => cfg = ⟨clientAddress c, serverAddress⟩
  | .right, listen, cfg => cfg = ⟨serverAddress, {}⟩ ∨
      listen = false ∧ cfg = ⟨serverAddress, clientAddress c⟩

/-- The datagram carries one of these segments of that socket. -/
def Sent (c : Choices) (side : Side) (listen : Bool) (segs : List TCPSegment) (packet : Bytes) : Prop :=
  ∃ seg ∈ segs, seg.Small ∧ ∃ cfg, Uses c side listen cfg ∧ Encodes cfg seg packet

/-- A well-formed datagram of another protocol. -/
structure Foreign (d : IPv4Datagram) : Prop where
  fits : d.header.Fits
  size : 4 * d.header.hlen.toNat + d.payload.size = d.header.len.toNat
  proto : d.header.proto ≠ IPv4Header.PROTO_TCP

def SentForeign (packet : Bytes) : Prop :=
  ∃ d wire, Foreign d ∧ d.serialize = .ok wire ∧ wire.concatenate = packet

/-- The datagram carries a segment of one of the two, or it is of another protocol. -/
def Traffic (c : Choices) (listens : Side → Bool) (segs : Side → List TCPSegment) (packet : Bytes) : Prop :=
  (∃ side, Sent c side (listens side) (segs side) packet) ∨ SentForeign packet

theorem Uses.mono {cfg : FdAdapterConfig} (h : Uses c side listen cfg)
    (less : listen' = true → listen = true) : Uses c side listen' cfg := by
  cases side with
  | left => exact h
  | right =>
    refine h.imp_right fun hlater => ⟨eq_false_of_ne_true fun hlistens => ?_, hlater.2⟩
    exact Bool.false_ne_true (hlater.1.symm.trans (less hlistens))

theorem Sent.mono (h : Sent c side listen segs packet) (sub : segs ⊆ segs')
    (less : listen' = true → listen = true) : Sent c side listen' segs' packet := by
  obtain ⟨seg, hseg, hsmall, cfg, huses, hencodes⟩ := h
  exact ⟨seg, sub hseg, hsmall, cfg, huses.mono less, hencodes⟩

variable {listens listens' : Side → Bool} {sends sends' : Side → List TCPSegment}

theorem Traffic.mono (h : Traffic c listens sends packet) (sub : ∀ side, sends side ⊆ sends' side)
    (less : ∀ side, listens' side = true → listens side = true) : Traffic c listens' sends' packet :=
  h.imp_left fun ⟨side, hsent⟩ => ⟨side, hsent.mono (sub side) (less side)⟩

theorem SentForeign.parse {buffer : Buffer} (h : SentForeign buffer.str) :
    ∃ d, IPv4Datagram.parse {} buffer = (.noError, d) ∧ Foreign d := by
  obtain ⟨d, wire, ⟨hfits, hsize, hproto⟩, hwire, hbytes⟩ := h
  obtain ⟨cksum, wire', hwire', hparse⟩ := IPv4Datagram.parse_serialize hfits hsize
  obtain rfl : wire' = wire := Except.ok.inj (hwire'.symm.trans hwire)
  obtain ⟨-, payload, hpayload, hparsed⟩ := hparse {} buffer hbytes.symm
  refine ⟨_, hparsed, hfits.sealWith cksum, ?_, hproto⟩
  have hsame : (BufferList.ofBuffer payload).size = d.payload.size := by
    rw [← BufferList.length_concatenate, BufferList.concatenate_ofBuffer, hpayload,
      BufferList.length_concatenate]
  exact hsame ▸ hsize

theorem Foreign.serialize {d : IPv4Datagram} (h : Foreign d) :
    ∃ wire, d.serialize = .ok wire ∧ SentForeign wire.concatenate := by
  obtain ⟨cksum, wire, hwire, -⟩ := IPv4Datagram.parse_serialize h.fits h.size
  exact ⟨wire, hwire, d, wire, h, hwire, rfl⟩

/-- Routers may send on what is on its way. -/
theorem relayable_traffic (c : Choices) (listens : Side → Bool) (sends : Side → List TCPSegment) :
    Relayable (Traffic c listens sends) := by
  rintro buffer ttl (⟨side, seg, hseg, hsmall, cfg, huses, hencodes⟩ | hforeign)
  · obtain ⟨header, payload, hparse, hbears⟩ := hencodes.parse hsmall rfl
    rw [hparse]
    obtain ⟨wire, hwire, hencodes'⟩ := (hbears.aged ttl).encodes hsmall
    exact ⟨wire, hwire, .inl ⟨side, seg, hseg, hsmall, cfg, huses, hencodes'⟩⟩
  · obtain ⟨d, hparse, hfits, hsize, hproto⟩ := hforeign.parse
    rw [hparse]
    have haged : Foreign { d with header := { d.header with ttl } } :=
      ⟨⟨hfits.ver, hfits.hlen, hfits.offset⟩, hsize, hproto⟩
    obtain ⟨wire, hwire, hforeign'⟩ := haged.serialize
    exact ⟨wire, hwire, .inr hforeign'⟩

/-! ## What a socket makes of it -/

/-- What the adapter of a socket may be: the client knows the server's address, and the server learns the
client's. -/
def Placed (c : Choices) : Side → TCPOverIPv4Adapter → Prop
  | .left, a => a = ⟨⟨clientAddress c, serverAddress⟩, false⟩
  | .right, a => a = ⟨⟨serverAddress, {}⟩, true⟩ ∨ a = ⟨⟨serverAddress, clientAddress c⟩, false⟩

theorem Placed.uses {a : TCPOverIPv4Adapter} (h : Placed c side a) : Uses c side a.listen a.cfg := by
  cases side with
  | left =>
    cases h
    rfl
  | right =>
    rcases h with rfl | rfl
    · exact .inl rfl
    · exact .inr ⟨rfl, rfl⟩

/-- **A socket makes segments of what the other has sent only.** Its own segments come from the wrong
address, or are for the wrong port. -/
theorem Placed.unwrap {a a' : TCPOverIPv4Adapter} (h : Placed c side a)
    (less : a.listen = true → listens side = true) {buffer : Buffer}
    (traffic : Traffic c listens sends buffer.str) {out : Option TCPSegment}
    (unwrapped : a.unwrapTcpInIp (IPv4Datagram.parse {} buffer).2 = (a', .ok out)) :
    Placed c side a' ∧ (a'.listen = true → a.listen = true) ∧
      ∀ got, out = some got → ∃ seg ∈ sends side.other, got.Alike seg := by
  rcases traffic with ⟨origin, seg, hseg, hsmall, cfg, huses, hencodes⟩ | hforeign
  swap
  · obtain ⟨d, hparse, hd⟩ := hforeign.parse
    rw [hparse] at unwrapped
    cases (TCPOverIPv4Adapter.unwrap_misaddressed (.inl hd.proto)).symm.trans unwrapped
    exact ⟨h, id, fun _ hc => by cases hc⟩
  obtain ⟨header, payload, hparse, hbears⟩ := hencodes.parse hsmall rfl
  rw [hparse] at unwrapped
  rcases hbears.unwrap_cases hsmall a with heq | ⟨b, got, heq, halike, hport, hcase⟩
  · cases heq.symm.trans unwrapped
    exact ⟨h, id, fun _ hc => by cases hc⟩
  · cases heq.symm.trans unwrapped
    have hnumeric : (clientAddress c).ipv4Numeric ≠ serverAddress.ipv4Numeric :=
      show (0xc0a80032 : UInt32) ≠ 0xac100064 by decide
    cases side with
    | left =>
      cases h
      rcases hcase with ⟨-, rfl, hsource⟩ | ⟨hc, -⟩
      · cases origin with
        | left =>
          cases huses
          exact absurd hsource hnumeric
        | right => exact ⟨rfl, id, fun _ hgot => ⟨seg, hseg, Option.some.inj hgot ▸ halike⟩⟩
      · cases hc
    | right =>
      cases origin with
      | left =>
        have hgot : ∀ got', some got = some got' → ∃ seg ∈ sends .left, got'.Alike seg :=
          fun _ hgot => ⟨seg, hseg, Option.some.inj hgot ▸ halike⟩
        rcases hcase with ⟨-, rfl, -⟩ | ⟨hlisten, rfl⟩
        · exact ⟨h, id, hgot⟩
        · cases huses
          exact ⟨.inr rfl, fun _ => hlisten, hgot⟩
      | right =>
        exfalso
        rcases huses with rfl | ⟨hlater, rfl⟩
        · have hnone : (0 : UInt16) ≠ 1234 := by decide
          rcases h with rfl | rfl <;> exact hnone hport
        · rcases h with rfl | rfl
          · exact Bool.false_ne_true (hlater.symm.trans (less rfl))
          · rcases hcase with ⟨-, -, hsource⟩ | ⟨hc, -⟩
            · exact hnumeric hsource.symm
            · cases hc

/-- A socket's adapter, beside what was handed to it: what it has written carries that, and since some time
ago it has not begun to listen, nor has anything been taken back. -/
structure Stands (c : Choices) (side : Side) (listens : Side → Bool) (sends : Side → List TCPSegment)
    (a : NetworkInterfaceAdapter) (handed : List TCPSegment) : Prop where
  wrote : a.Wrote (Sent c side a.listen handed)
  placed : Placed c side a.toTCPOverIPv4Adapter
  less : a.listen = true → listens side = true
  sub : sends side ⊆ handed

theorem Stands.move {a a' : NetworkInterfaceAdapter} {handed handed' : List TCPSegment}
    (h : Stands c side listens sends a handed) (wrote : a'.Wrote (Sent c side a.listen handed'))
    (placed : Placed c side a'.toTCPOverIPv4Adapter) (less : a'.listen = true → a.listen = true)
    (sub : handed ⊆ handed') : Stands c side listens sends a' handed' :=
  ⟨wrote.mono fun _ hsent => hsent.mono (List.Subset.refl _) less, placed, h.less ∘ less,
    List.Subset.trans h.sub sub⟩

/-- What a socket reads from its router is made into segments of the peer, or into none. -/
theorem link (c : Choices) (side : Side) (listens : Side → Bool) (sends : Side → List TCPSegment)
    {peer : List TCPSegment} (sub : sends side.other ⊆ peer) :
    FdAdapter.Link (Heard (Traffic c listens sends)) (Stands c side listens sends) peer where
  read := by
    intro a handed packet writes a' out h heard called
    obtain ⟨hwrote, -⟩ := h.wrote.read_ok called
    obtain ⟨packet', tap, hread, ⟨rfl, rfl⟩ | ⟨frame, received, b, hframe, hreceived, hpending, hout⟩⟩ :=
      TCPOverIPv4OverEthernetAdapter.read_cases called
    · exact ⟨h.move hwrote h.placed id (List.Subset.refl _), fun _ hc => by cases hc⟩
    · obtain ⟨-, hbase, -⟩ := (h.wrote.received hread frame).sendPending hpending
      rcases hout with ⟨rfl, rfl⟩ | ⟨d, rfl, hgot, rfl⟩
      · refine ⟨h.move hwrote (hbase ▸ h.placed) ?_ (List.Subset.refl _), fun _ hc => by cases hc⟩
        rw [hbase]
        exact id
      · cases FileDescriptor.read_data hread
        obtain ⟨buffer, htraffic, rfl⟩ := heard.datagram hframe hreceived
        obtain ⟨hplaced, hless, hlike⟩ :=
          (hbase ▸ h.placed).unwrap (hbase ▸ h.less) htraffic (Prod.ext rfl hgot)
        refine ⟨h.move hwrote hplaced (hbase ▸ hless) (List.Subset.refl _), fun got hout => ?_⟩
        obtain ⟨seg, hseg, halike⟩ := hlike got hout
        exact ⟨seg, sub hseg, halike⟩
  write := by
    intro a handed seg writes a' h small called
    have hlast : seg ∈ handed ++ [seg] := List.mem_append_right _ (List.mem_singleton_self seg)
    have hmore := List.subset_append_left handed [seg]
    obtain ⟨hwrote, hbase⟩ := (h.wrote.mono fun _ hsent => hsent.mono hmore id).write_ok small
      (fun packet hencodes => ⟨seg, hlast, small, a.cfg, h.placed.uses, hencodes⟩) called
    refine h.move hwrote (hbase ▸ h.placed) ?_ hmore
    rw [hbase]
    exact id
  tick := by
    intro a handed ms writes a' h called
    obtain ⟨hwrote, hbase⟩ := h.wrote.tick_ok called
    refine h.move hwrote (hbase ▸ h.placed) ?_ (List.Subset.refl _)
    rw [hbase]
    exact id

/-! ## Two programs and a bouncer -/

open TCPSpongeSocket (Event Steady)

/-- What a program does next: a turn of its socket's loop, or one of its network thread. -/
inductive Move
  | host (event : Event NetworkInterfaceAdapter)
  | network (poll : EventLoop.Poll RuleName Answers) (exitFlag : Bool)

namespace Program

def advance (p : Program) : Move → Program
  | .host event => { p with host := TCPSpongeSocket.advance p.host event }
  | .network poll exitFlag =>
    match turn p.network poll exitFlag with
    | .ok (_, network) => { p with network }
    | .error _ => p

/-- The turn does not throw. -/
def returns (p : Program) : Move → Bool
  | .host event => TCPSpongeSocket.returns p.host event
  | .network poll exitFlag => (turn p.network poll exitFlag).isOk

end Program

/-- A client, a server, and the program between them. -/
structure Setup where
  client : Program
  server : Program
  bouncer : List Nat × Bouncer.State

/-- One of the three takes a turn. -/
inductive Op
  | program (side : Side) (move : Move)
  | bouncer (poll : EventLoop.Poll Nat Bouncer.Answers)

namespace Setup

def on (p : Setup) : Side → Program
  | .left => p.client
  | .right => p.server

def set (p : Setup) : Side → Program → Setup
  | .left, client => { p with client }
  | .right, server => { p with server }

def step (p : Setup) : Op → Setup
  | .program side move => p.set side ((p.on side).advance move)
  | .bouncer poll => { p with bouncer := EventLoop.step Bouncer.rule p.bouncer poll }

@[simp] theorem on_set (p : Setup) (side : Side) (x : Program) : (p.set side x).on side = x := by
  cases side <;> rfl

@[simp] theorem on_set_other (p : Setup) (side : Side) (x : Program) :
    (p.set side x).on side.other = p.on side.other := by
  cases side <;> rfl

@[simp] theorem bouncer_set (p : Setup) (side : Side) (x : Program) : (p.set side x).bouncer = p.bouncer := by
  cases side <;> rfl

/-- The two connections. -/
def shadow (p : Setup) : Duplex := ⟨p.client.host.2.shadow, p.server.host.2.shadow⟩

theorem shadow_eq (p : Setup) (side : Side) :
    p.shadow = Duplex.join side (p.on side).host.2.shadow (p.on side.other).host.2.shadow := by
  cases side <;> rfl

def listening (p : Setup) (side : Side) : Bool := (p.on side).host.2.adapter.listen

def handed (p : Setup) (side : Side) : List TCPSegment := (p.on side).host.2.handed

/-- What a socket, a rule of a network thread and the bouncer find to read. It was written for them, any time
before, and they may find it any number of times. -/
def ForHost (p : Setup) (side : Side) (packet : Bytes) : Prop :=
  packet ∈ (p.on side).network.2.frameFd.packets

def ForRule (p : Setup) (side : Side) : RuleName → Bytes → Prop
  | .hostToRouter, packet => packet ∈ (p.on side).host.2.adapter.tap.packets
  | .internetToRouter, packet => ∃ n, ∃ sent ∈ (p.bouncer.2.sockets n).sent, sent.2 = packet
  | _, _ => False

def ForBouncer (p : Setup) (payload : Bytes) : Prop :=
  ∃ side, ∃ sent ∈ (p.on side).network.2.internetSocket.sent, sent.2 = payload

/-- What a network thread reads was written for it, or it is noise. -/
def wires (p : Setup) (side : Side) : EventLoop.Kernel RuleName Answers where
  answers := fun r answers => (rule r).direction = .In → ∀ packet, answers.frame = .ok packet →
    p.ForRule side r packet ∨ Heard SentForeign packet
  hangs := fun _ => True

/-- What is read comes from where it must. -/
def Delivers (p : Setup) : Op → Prop
  | .program side (.host event) => ∀ packet, event.packet? = some packet →
      p.ForHost side packet ∨ Heard SentForeign packet
  | .program side (.network poll _) => (p.wires side).Polls poll
  | .bouncer poll =>
      (Bouncer.hearing fun payload => p.ForBouncer payload ∨ Heard SentForeign payload).Polls poll

/-- The turn does not throw; for the bouncer it is not the last either. -/
def returns (p : Setup) : Op → Bool
  | .program side move => (p.on side).returns move
  | .bouncer poll => EventLoop.goes Bouncer.rule p.bouncer poll

/-- The turn does not throw, and what it reads is as assumed; either socket has used fewer than `2 ^ 29`
sequence numbers. -/
structure Allowed (p : Setup) (op : Op) : Prop where
  returned : p.returns op = true
  delivers : p.Delivers op
  few : ∀ side, (p.on side).host.2.tcp.sender.nextSeqno < 2 ^ 29

/-- What holds along the turns of all three. -/
structure Refines (c : Choices) (cfg cfg' : TCPConfig) (p : Setup) : Prop where
  steady : ∀ side, (p.on side).host.2.Steady ∧ (p.on side).host.1.Sublist TCPSpongeSocket.rules
  run : Duplex.Reached cfg cfg' p.shadow
  stands : ∀ side, Stands c side p.listening p.handed (p.on side).host.2.adapter (p.handed side)
  networks : ∀ side, (p.on side).network.2.Bearing (Traffic c p.listening p.handed) ∧
    (p.on side).network.1.Sublist rules
  bouncer : (Bouncer.Exact p.bouncer.2 ∧
      ∀ a ∈ p.bouncer.2.log, Heard (Traffic c p.listening p.handed) a.payload) ∧
    p.bouncer.1.Nodup

variable {p : Setup} {cfg cfg' : TCPConfig}

/-- Noise is among what may be on its way. -/
theorem heard_noise {packet : Bytes} (h : Heard SentForeign packet) :
    Heard (Traffic c listens sends) packet := h.mono fun _ => .inr

/-- What the network threads read carries segments of the two sockets. -/
theorem Refines.hearing (h : Refines c cfg cfg' p) {poll : EventLoop.Poll RuleName Answers}
    (polls : (p.wires side).Polls poll) :
    (Lab7.hearing (Traffic c p.listening p.handed)).Polls poll := by
  refine polls.mono (fun r answers hfair hin packet hpacket => ?_) fun _ => id
  rcases hfair hin packet hpacket with hwritten | hnoise
  · cases r with
    | hostToRouter =>
      exact ((h.stands side).wrote.holding.packets packet hwritten).mono fun _ hsent => .inl ⟨side, hsent⟩
    | internetToRouter =>
      obtain ⟨n, sent, hsent, rfl⟩ := hwritten
      exact h.bouncer.1.1.relays h.bouncer.1.2 hsent
    | routerToHost => exact hwritten.elim
    | routerToInternet => exact hwritten.elim
  · exact heard_noise hnoise

/-- One of the programs has moved on. -/
theorem Refines.set (h : Refines c cfg cfg' p) {x : Program} (steady : x.host.2.Steady)
    (sub : x.host.1.Sublist TCPSpongeSocket.rules)
    (run : Duplex.Reached cfg cfg' (Duplex.join side x.host.2.shadow (p.on side.other).host.2.shadow))
    (stands : Stands c side p.listening p.handed x.host.2.adapter x.host.2.handed)
    (bearing : x.network.2.Bearing (Traffic c p.listening p.handed)) (sub' : x.network.1.Sublist rules) :
    Refines c cfg cfg' (p.set side x) := by
  have hthis := p.on_set side x
  have hother := p.on_set_other side x
  have hsub : ∀ s, p.handed s ⊆ (p.set side x).handed s := by
    refine Side.forall_of side ?_ ?_
    · rw [handed, handed, hthis]
      exact stands.sub
    · rw [handed, handed, hother]
      exact List.Subset.refl _
  have hless : ∀ s, (p.set side x).listening s = true → p.listening s = true := by
    refine Side.forall_of side ?_ ?_
    · rw [listening, hthis]
      exact stands.less
    · rw [listening, hother]
      exact id
  have hweaker (packet : Bytes) (htraffic : Traffic c p.listening p.handed packet) :
      Traffic c (p.set side x).listening (p.set side x).handed packet := htraffic.mono hsub hless
  refine ⟨Side.forall_of side ?_ ?_, ?_, Side.forall_of side ?_ ?_, Side.forall_of side ?_ ?_, ?_⟩
  · rw [hthis]
    exact ⟨steady, sub⟩
  · rw [hother]
    exact h.steady side.other
  · rw [shadow_eq _ side, hthis, hother]
    exact run
  · refine ⟨?_, ?_, id, List.Subset.refl _⟩
    · rw [handed, hthis]
      exact stands.wrote
    · rw [hthis]
      exact stands.placed
  · obtain ⟨hwrote, hplaced, -⟩ := h.stands side.other
    refine ⟨?_, ?_, id, List.Subset.refl _⟩
    · rw [handed, hother]
      exact hwrote
    · rw [hother]
      exact hplaced
  · rw [hthis]
    exact ⟨bearing.mono hweaker, sub'⟩
  · rw [hother]
    exact (h.networks side.other).imp_left fun hbearing => hbearing.mono hweaker
  · obtain ⟨⟨hexact, hlog⟩, hnodup⟩ := h.bouncer
    rw [bouncer_set]
    exact ⟨⟨hexact, fun a ha => (hlog a ha).mono hweaker⟩, hnodup⟩

theorem Refines.bounce (h : Refines c cfg cfg' p) {poll : EventLoop.Poll Nat Bouncer.Answers}
    (returned : EventLoop.goes Bouncer.rule p.bouncer poll = true) (delivers : p.Delivers (.bouncer poll)) :
    Refines c cfg cfg' (p.step (.bouncer poll)) := by
  have hpolls : (Bouncer.hearing (Heard (Traffic c p.listening p.handed))).Polls poll := by
    refine delivers.mono (fun _ answers hfair source payload hanswer => ?_) fun _ => id
    rcases hfair source payload hanswer with ⟨side, sent, hsent, rfl⟩ | hnoise
    · exact (h.networks side).1.toInternet sent hsent
    · exact heard_noise hnoise
  have hbouncer := (Bouncer.upholds _).step h.bouncer.2 h.bouncer.1 hpolls returned
  exact ⟨h.steady, h.run, h.stands, h.networks, hbouncer.1, h.bouncer.2.sublist hbouncer.2⟩

theorem Refines.step (h : Refines c cfg cfg' p) {op : Op} (allowed : p.Allowed op) :
    Refines c cfg cfg' (p.step op) := by
  obtain ⟨hreturned, hdelivers, hfew⟩ := allowed
  cases op with
  | bouncer poll => exact h.bounce hreturned hdelivers
  | program side move =>
    obtain ⟨hsteady, hsub⟩ := h.steady side
    obtain ⟨hbearing, hsub'⟩ := h.networks side
    have hrun := shadow_eq p side ▸ h.run
    cases move with
    | host event =>
      obtain ⟨more, hturn⟩ := TCPSpongeSocket.advance_eq hreturned
      obtain ⟨hturned, hkept⟩ := hsteady.turn (hsub.nodup (by decide)) hturn
      have heard (packet : Bytes) (hpacket : event.packet? = some packet) :
          Heard (Traffic c p.listening p.handed) packet :=
        (hdelivers packet hpacket).elim (hbearing.toHost packet) heard_noise
      obtain ⟨hrun', hstands⟩ := hsteady.turn_refines hsub
        (link c side p.listening p.handed (List.subset_append_left _ _)) (h.stands side) hrun (hfew side)
        (hfew side.other) heard hturn
      exact h.set hturned (hkept.trans hsub) hrun' hstands hbearing hsub'
    | network poll exitFlag =>
      cases hturn : turn (p.on side).network poll exitFlag with
      | error e =>
        rw [returns, Program.returns, hturn] at hreturned
        cases hreturned
      | ok out =>
        obtain ⟨more, kept, s'⟩ := out
        obtain ⟨hturned, hkept⟩ := hbearing.turn (hsub'.nodup (by decide)) (relayable_traffic _ _ _)
          (h.hearing hdelivers) hturn
        have hnext : (p.on side).advance (.network poll exitFlag) =
            { p.on side with network := (kept, s') } := by
          rw [Program.advance, hturn]
        rw [Setup.step, hnext]
        exact h.set hsteady hsub hrun (h.stands side) hturned (hkept.trans hsub')

end Setup

/-! ## The start -/

theorem bearing_makeRouter (Good : Bytes → Prop) (isClient : Bool) (c : Choices) :
    (makeRouter isClient c).Bearing Good ∧ (makeRouter isClient c).interfaces.length = 2 := by
  have hbare (address address' : EthernetAddress) (ip ip' : UInt32) :
      Router.Bearing Good ⟨[⟨.new address (.inet ip 0), []⟩, ⟨.new address' (.inet ip' 0), []⟩], []⟩ := by
    refine Router.bearing_new (List.cons_ne_nil _ _) ?_
    have hfresh (address : EthernetAddress) (ip : UInt32) :
        AsyncNetworkInterface.Bearing Good ⟨.new address (.inet ip 0), []⟩ :=
      ⟨NetworkInterface.bearing_new Good address ip 0, fun _ hd => absurd hd List.not_mem_nil⟩
    exact List.forall_mem_cons.mpr ⟨hfresh _ _, List.forall_mem_singleton.mpr (hfresh _ _)⟩
  have hdirect : ∀ hop ∈ (none : Option Address), hop.IsInet := fun _ hc => absurd hc (Option.not_mem_none _)
  have hvia (ip : UInt32) : ∀ hop ∈ some (Address.inet ip 0), hop.IsInet := by
    rintro hop hhop
    cases Option.mem_some.mp hhop
    exact ⟨ip, rfl⟩
  cases isClient with
  | true =>
    exact ⟨(((hbare _ _ _ _).addRoute 0 _ 16 hdirect (i := hostSide) Nat.zero_lt_two).addRoute 0 _ 8 hdirect
      (i := internetSide) Nat.one_lt_two).addRoute 0 _ 12 (hvia _) (i := internetSide) Nat.one_lt_two, rfl⟩
  | false =>
    exact ⟨(((hbare _ _ _ _).addRoute 0 _ 12 hdirect (i := hostSide) Nat.zero_lt_two).addRoute 0 _ 8 hdirect
      (i := internetSide) Nat.one_lt_two).addRoute 0 _ 16 (hvia _) (i := internetSide) Nat.one_lt_two, rfl⟩

theorem wrote_makeAdapter (Good : Bytes → Prop) (isClient : Bool) (c : Choices) (base : TCPOverIPv4Adapter) :
    TCPOverIPv4OverEthernetAdapter.Wrote Good
      { makeAdapter isClient c with toTCPOverIPv4Adapter := base } := by
  cases isClient with
  | true =>
    exact ⟨⟨NetworkInterface.bearing_new Good _ _ _, ⟨_, rfl⟩, fun _ hc => absurd hc List.not_mem_nil⟩, rfl⟩
  | false =>
    exact ⟨⟨NetworkInterface.bearing_new Good _ _ _, ⟨_, rfl⟩, fun _ hc => absurd hc List.not_mem_nil⟩, rfl⟩

/-- A datagram without a payload is taken for a frame without a type. -/
theorem heard_nil (Good : Bytes → Prop) : Heard Good [] := by
  intro f hf htype
  have hnone : (EthernetFrame.parse {} (Buffer.ofString [])).2.header.type ≠ EthernetHeader.TYPE_IPv4 := by
    decide
  rw [hf] at hnone
  exact absurd htype hnone

/-- What a program starts with: a network thread that holds nothing, and a socket. -/
theorem programBody_ok {isClient : Bool} {writes : Nat → Answer Unit} {p : Program}
    (booted : programBody isClient c writes = .ok p) :
    ((∀ Good, p.network.2.Bearing Good) ∧ p.network.1 = rules) ∧ p.host.1 = TCPSpongeSocket.rules ∧
      (if isClient then TCPSpongeSocket.connect (makeAdapter isClient c) none {}
        { source := clientAddress c, destination := serverAddress }
      else TCPSpongeSocket.listenAndAccept (makeAdapter isClient c) none {} { source := serverAddress }) =
        .ok p.host.2 := by
  obtain ⟨sock, hsock, booted⟩ := bind_ok booted
  obtain ⟨sock', hsock', booted⟩ := bind_ok booted
  obtain ⟨sock'', hsock'', booted⟩ := bind_ok booted
  have hsent : ∀ sent ∈ sock''.sent, sent.2 = [] := by
    rw [UDPSocket.sendto_ok hsock'', UDPSocket.sendto_ok hsock', UDPSocket.sendto_ok hsock]
    simp
  have hnetwork (Good : Bytes → Prop) : Network.Bearing Good
      { router := makeRouter isClient c, internetSocket := sock'', bounceAddress := c.bounceAddress } := by
    obtain ⟨hrouter, htwo⟩ := bearing_makeRouter Good isClient c
    refine ⟨hrouter, htwo, fun _ hc => absurd hc List.not_mem_nil, fun sent hmem => ?_⟩
    rw [hsent sent hmem]
    exact heard_nil Good
  cases isClient with
  | true =>
    dsimp only at booted
    rw [if_pos rfl] at booted ⊢
    obtain ⟨socket, hsocket, hdone⟩ := bind_ok booted
    cases hdone
    exact ⟨⟨hnetwork, rfl⟩, rfl, hsocket⟩
  | false =>
    dsimp only at booted
    rw [if_neg Bool.false_ne_true] at booted ⊢
    obtain ⟨socket, hsocket, hdone⟩ := bind_ok booted
    cases hdone
    exact ⟨⟨hnetwork, rfl⟩, rfl, hsocket⟩

namespace Setup

theorem refines_start {c c' : Choices} {writes writes' : Nat → Answer Unit} {client server : Program}
    (booted : programBody true c writes = .ok client) (booted' : programBody false c' writes' = .ok server)
    (pairs : Nat) :
    ∃ cfg cfg', Refines c cfg cfg' ⟨client, server, (Bouncer.rules pairs, {})⟩ := by
  obtain ⟨hnetwork, hrules, hconnect⟩ := programBody_ok booted
  obtain ⟨hnetwork', hrules', hlisten⟩ := programBody_ok booted'
  rw [if_pos rfl] at hconnect
  rw [if_neg Bool.false_ne_true] at hlisten
  have hstarts : TCPSpongeSocket.Starts (makeAdapter true c) client.host.2 := ⟨{}, _, .inl hconnect⟩
  have hstarts' : TCPSpongeSocket.Starts (makeAdapter false c') server.host.2 := ⟨{}, _, .inr hlisten⟩
  obtain ⟨cfg, hleft⟩ := hstarts.shadow_eq
  obtain ⟨cfg', hright⟩ := hstarts'.shadow_eq
  refine ⟨cfg, cfg', Side.forall_of .left ?_ ?_, Duplex.reached_start hleft hright,
    Side.forall_of .left ?_ ?_, Side.forall_of .left ?_ ?_, ?_⟩
  · exact ⟨hstarts.steady (wrote_makeAdapter _ true c _), hrules ▸ .refl _⟩
  · exact ⟨hstarts'.steady (wrote_makeAdapter _ false c' _), hrules' ▸ .refl _⟩
  · rw [TCPSpongeSocket.connect_ok] at hconnect
    generalize (TCPConnection.new {}).connect = tcp at hconnect
    have hsocket := Except.ok.inj hconnect
    refine ⟨?_, ?_, id, List.Subset.refl _⟩
    · show TCPOverIPv4OverEthernetAdapter.Wrote _ client.host.2.adapter
      rw [← hsocket]
      exact wrote_makeAdapter _ true c _
    · show Placed c .left client.host.2.adapter.toTCPOverIPv4Adapter
      rw [← hsocket]
      rfl
  · have hsocket := Except.ok.inj hlisten
    refine ⟨?_, ?_, id, List.Subset.refl _⟩
    · show TCPOverIPv4OverEthernetAdapter.Wrote _ server.host.2.adapter
      rw [← hsocket]
      exact wrote_makeAdapter _ false c' _
    · show Placed c .right server.host.2.adapter.toTCPOverIPv4Adapter
      rw [← hsocket]
      exact .inl rfl
  · exact ⟨hnetwork.1 _, hnetwork.2 ▸ .refl _⟩
  · exact ⟨hnetwork'.1 _, hnetwork'.2 ▸ .refl _⟩
  · exact ⟨⟨Bouncer.exact_new, fun _ ha => absurd ha List.not_mem_nil⟩, List.nodup_range⟩

variable {c c' : Choices} {writes writes' : Nat → Answer Unit} {client server : Program} {pairs : Nat}
  {p : Setup}

theorem refines_run (booted : programBody true c writes = .ok client)
    (booted' : programBody false c' writes' = .ok server)
    (run : Runs.Reach step Allowed ⟨client, server, (Bouncer.rules pairs, {})⟩ p) :
    ∃ cfg cfg', Refines c cfg cfg' p := by
  obtain ⟨cfg, cfg', hstart⟩ := refines_start booted booted' pairs
  exact ⟨cfg, cfg', run.invariant (Refines c cfg cfg') hstart fun _ _ h allowed => h.step allowed⟩

theorem Refines.reads {cfg cfg' : TCPConfig} (h : Refines c cfg cfg' p) (side : Side) :
    (p.on side).host.2.threadData.delivered <+: (p.on side.other).host.2.threadData.received := by
  obtain ⟨⟨_, _, hleft⟩, _, _, hright⟩ := Duplex.joint_of_run h.run
  cases side with
  | left => exact hright.reads
  | right => exact hleft.reads

end Setup

end Lab7

end Sponge
