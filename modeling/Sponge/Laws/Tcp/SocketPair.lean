import Sponge.Laws.Tcp.Socket

/-!
# Laws.Tcp.SocketPair — two sockets refine two connections

A `SocketPair` is two sockets that take turns of their loops in any order, each with its owner on one side
and its adapter on the other. Nothing is assumed of the owners or of the kernel, except where packets come
from: one that is read was written by the other socket's adapter, any time before and any number of times, or
it is noise, of which no adapter on this port makes a segment.

Each turn is a few steps of a `Duplex` (`Steady.turn_refines`): the shadows of two sockets are two
connections over a network that loses, repeats and reorders. A packet differs from what was sent in its
ports, its checksum and the storage of its payload, and stands for the segment it is like. What a `Duplex`
promises its owners is therefore promised to the owners of two sockets (`owners_read_written`).

Turns are taken one at a time. A turn reads a packet first and writes packets last, so two turns that
overlap come to the same as one after the other.
-/

namespace Sponge

open TCPConnection (Op)

/-! ## Steps of one end -/

/-- What holds of a side and of the other holds of both. -/
theorem Side.forall_of {P : Side → Prop} (side : Side) (this : P side) (other : P side.other) :
    ∀ side, P side := by
  intro s
  cases side <;> cases s <;> assumption

namespace Duplex

/-- Two ends, this one on that side. -/
def join (side : Side) (x y : Endpoint) : Duplex :=
  match side with
  | .left => ⟨x, y⟩
  | .right => ⟨y, x⟩

variable {side : Side} {x y : Endpoint} {cfg cfg' : TCPConfig}

theorem join_step (side : Side) (x y : Endpoint) (op : Op) :
    (join side x y).step (side, op) = join side (x.step op) y := by
  cases side <;> rfl

theorem join_other (side : Side) (x y : Endpoint) : (join side x y).on side.other = y := by
  cases side <;> rfl

/-- Two connections that have got here. -/
abbrev Reached (cfg cfg' : TCPConfig) (s : Duplex) : Prop := Runs.Reach step Allowed (new cfg cfg') s

/-- An end uses few sequence numbers at a step. -/
theorem Reached.nextSeqno_step (run : Reached cfg cfg' (join side x y)) (op : Op)
    (few : x.conn.sender.nextSeqno < 2 ^ 30) :
    (x.step op).conn.sender.nextSeqno ≤ x.conn.sender.nextSeqno + 65535 := by
  obtain ⟨isn, log, hist, hway⟩ : ∃ isn log hist, Endpoint.Way isn log hist x y := by
    obtain ⟨⟨_, _, hleft⟩, _, _, hright⟩ := joint_of_run run
    cases side with
    | left => exact ⟨_, _, _, hleft⟩
    | right => exact ⟨_, _, _, hright⟩
  obtain ⟨_, _, -, hnext, -⟩ := hway.lane.ledger.call_accepts hway.ready (by omega) (x.conn.call_step op)
  exact hnext

/-- A step that receives something like what the other end sent. -/
theorem Reached.step (run : Reached cfg cfg' (join side x y)) {op : Op}
    (received : ∀ got, op = .segmentReceived got → ∃ sent ∈ y.conn.segmentsOut, got.Alike sent)
    (few : x.conn.sender.nextSeqno < 2 ^ 30) (few' : y.conn.sender.nextSeqno < 2 ^ 30) :
    Reached cfg cfg' (join side (x.step op) y) := by
  have hfew : (join side x y).Few := by
    cases side with
    | left => exact ⟨few, few'⟩
    | right => exact ⟨few', few⟩
  -- the segment as it was sent does the same
  obtain ⟨op', hsame, hdelivers⟩ : ∃ op', x.step op = x.step op' ∧ (join side x y).Delivers (side, op') := by
    cases op with
    | segmentReceived got =>
      obtain ⟨sent, hsent, halike⟩ := received got rfl
      refine ⟨.segmentReceived sent, ?_, ?_⟩
      · unfold Endpoint.step
        rw [show x.conn.step (.segmentReceived got) = x.conn.step (.segmentReceived sent) from
          TCPConnection.segmentReceived_alike halike x.conn]
        rfl
      · show sent ∈ ((join side x y).on side.other).conn.segmentsOut
        rw [join_other]
        exact hsent
    | connect => exact ⟨_, rfl, trivial⟩
    | write data => exact ⟨_, rfl, trivial⟩
    | endInputStream => exact ⟨_, rfl, trivial⟩
    | tick ms => exact ⟨_, rfl, trivial⟩
    | read len => exact ⟨_, rfl, trivial⟩
  rw [hsame, ← join_step]
  exact run.next ⟨hdelivers, hfew⟩

/-- A few such steps. -/
theorem Reached.foldl {ops : List Op} (run : Reached cfg cfg' (join side x y))
    (received : ∀ got, .segmentReceived got ∈ ops → ∃ sent ∈ y.conn.segmentsOut, got.Alike sent)
    (few : x.conn.sender.nextSeqno + 65535 * ops.length < 2 ^ 30)
    (few' : y.conn.sender.nextSeqno < 2 ^ 30) :
    Reached cfg cfg' (join side (ops.foldl Endpoint.step x) y) ∧
      (ops.foldl Endpoint.step x).conn.sender.nextSeqno ≤ x.conn.sender.nextSeqno + 65535 * ops.length := by
  induction ops generalizing x with
  | nil => exact ⟨run, Nat.le_refl _⟩
  | cons op ops ih =>
    rw [List.length_cons] at few ⊢
    have hnext := run.nextSeqno_step op (by omega)
    have hstep : Reached cfg cfg' (join side (x.step op) y) :=
      run.step (fun got hop => received got (hop ▸ List.mem_cons_self)) (by omega) few'
    obtain ⟨hrun, hle⟩ := ih hstep (fun got hop => received got (List.mem_cons_of_mem _ hop)) (by omega)
    exact ⟨hrun, hle.trans (by omega)⟩

/-- Either end may have connected at once. -/
theorem reached_start (left : x = Endpoint.new cfg ∨ x = (Endpoint.new cfg).step .connect)
    (right : y = Endpoint.new cfg' ∨ y = (Endpoint.new cfg').step .connect) :
    Reached cfg cfg' ⟨x, y⟩ := by
  have hzero (cfg : TCPConfig) : (Endpoint.new cfg).conn.sender.nextSeqno = 0 := rfl
  have hstart : Reached cfg cfg' (join .left (Endpoint.new cfg) (Endpoint.new cfg')) := .start
  have hleft : Reached cfg cfg' (join .left x (Endpoint.new cfg')) ∧ x.conn.sender.nextSeqno < 2 ^ 30 := by
    rcases left with rfl | rfl
    · exact ⟨hstart, by rw [hzero]; omega⟩
    · have hnext := hstart.nextSeqno_step .connect (by rw [hzero]; omega)
      rw [hzero] at hnext
      exact ⟨hstart.step (fun _ hop => by cases hop) (by rw [hzero]; omega) (by rw [hzero]; omega), by omega⟩
  have hright : Reached cfg cfg' (join .right (Endpoint.new cfg') x) := hleft.1
  rcases right with rfl | rfl
  · exact hright
  · exact hright.step (fun _ hop => by cases hop) (by rw [hzero]; omega) hleft.2

end Duplex

/-! ## A turn of one socket -/

/-- What a socket relies on at a turn. Of the packets that it may hear its adapter makes segments like these
of the peer, or none; and what is assumed of the adapter, beside what was handed to it, is kept. -/
structure FdAdapter.Link {α : Type} [FdAdapter α] (Hears : FdAdapter.Packet α → Prop)
    (Inv : α → List TCPSegment → Prop) (peer : List TCPSegment) : Prop where
  read : ∀ {a segs p writes a' out}, Inv a segs → Hears p →
    FdAdapter.read a (.ok p) writes = .ok (a', out) →
    Inv a' segs ∧ ∀ got, out = some got → ∃ seg ∈ peer, got.Alike seg
  write : ∀ {a segs seg writes a'}, Inv a segs → seg.Small → FdAdapter.write a seg writes = .ok a' →
    Inv a' (segs ++ [seg])
  tick : ∀ {a segs ms writes a'}, Inv a segs → FdAdapter.tick a ms writes = .ok a' → Inv a' segs

/-- A lawful adapter that keeps its port, and packets that convey only what the peer sent. -/
theorem LawfulFdAdapter.link {α : Type} [FdAdapter α] [LawfulFdAdapter α] (q : UInt16)
    (peer : List TCPSegment) :
    FdAdapter.Link (fun p => FdAdapter.Conveys (fun a : α => LawfulFdAdapter.port a = q) p peer)
      (fun a segs => LawfulFdAdapter.Wrote a segs ∧ LawfulFdAdapter.port a = q) peer where
  read := by
    intro a segs p writes a' out inv hears hread
    obtain ⟨hwrote, hport, -⟩ := LawfulFdAdapter.read_ok inv.1 hread
    refine ⟨⟨hwrote, hport.trans inv.2⟩, ?_⟩
    rintro got rfl
    exact hears a writes a' got inv.2 hread
  write := by
    intro a segs seg writes a' inv small hwrite
    obtain ⟨hwrote, hport⟩ := LawfulFdAdapter.write_ok inv.1 small hwrite
    exact ⟨hwrote, hport.trans inv.2⟩
  tick := by
    intro a segs ms writes a' inv htick
    obtain ⟨hwrote, hport⟩ := LawfulFdAdapter.tick_ok inv.1 htick
    exact ⟨hwrote, hport.trans inv.2⟩

namespace TCPSpongeSocket

open EventLoop (Upholds Kernel)

variable {α : Type} [FdAdapter α]

/-- The packet that `poll` has for the first rule. -/
def Event.packet? (event : Event α) : Option (FdAdapter.Packet α) :=
  match event.poll with
  | .ready revents => (revents .readDatagram).ready.bind fun answers => answers.packet.toOption
  | _ => none

/-- A socket starts with a fresh connection, or with one that connects. -/
theorem Starts.shadow_eq {s : TCPSpongeSocket α} {adapter : α} (starts : Starts adapter s) :
    ∃ cfg, s.shadow = Endpoint.new cfg ∨ s.shadow = (Endpoint.new cfg).step .connect := by
  obtain ⟨cTcp, cAd, hconnect | hlisten⟩ := starts
  · refine ⟨cTcp, .inr ?_⟩
    have hstep : (Endpoint.new cTcp).step .connect = ⟨(TCPConnection.new cTcp).connect, [], []⟩ := rfl
    rw [hstep]
    rw [connect_ok] at hconnect
    generalize (TCPConnection.new cTcp).connect = tcp at *
    cases hconnect
    rfl
  · cases hlisten
    exact ⟨cTcp, .inl rfl⟩

variable {Hears : FdAdapter.Packet α → Prop} {Inv : α → List TCPSegment → Prop}

/-- Packets are among those that may be heard. -/
def hearing (Hears : FdAdapter.Packet α → Prop) : Kernel RuleName (Answers α) where
  answers := fun r answers => r = .readDatagram → ∀ p, answers.packet = .ok p → Hears p
  hangs := fun _ => True

theorem hearing_polls {event : Event α} (heard : ∀ p, event.packet? = some p → Hears p) :
    (hearing Hears).Polls event.poll := by
  unfold Event.packet? at heard
  cases hpoll : event.poll with
  | ready revents =>
    refine fun r => ⟨?_, fun _ => trivial⟩
    rintro answers hready rfl p hp
    refine heard p ?_
    rw [hpoll]
    dsimp only
    rw [hready, Option.bind_some, hp]
    rfl
  | _ => trivial

variable [LawfulFdAdapter α] {s s' : TCPSpongeSocket α} {side : Side} {peer : Endpoint}
  {cfg cfg' : TCPConfig} {n : Nat}

/-- A socket whose shadow and peer are two connections that have got here, with enough sequence numbers for
some closures more. -/
structure Paired (cfg cfg' : TCPConfig) (side : Side) (Inv : α → List TCPSegment → Prop) (peer : Endpoint)
    (n : Nat) (s : TCPSpongeSocket α) : Prop where
  steady : s.Steady
  inv : Inv s.adapter s.handed
  run : Duplex.Reached cfg cfg' (Duplex.join side s.shadow peer)
  few : s.tcp.sender.nextSeqno + 131070 * n < 2 ^ 30

theorem Paired.does (h : Paired cfg cfg' side Inv peer (n + 1) s) {ops : List Op} (does : Does s ops s')
    (few : peer.conn.sender.nextSeqno < 2 ^ 30) (steady : s'.Steady) (inv : Inv s'.adapter s'.handed)
    (received : ∀ got, .segmentReceived got ∈ ops → ∃ sent ∈ peer.conn.segmentsOut, got.Alike sent) :
    Paired cfg cfg' side Inv peer n s' := by
  have hfew := h.few
  have hops := does.few
  obtain ⟨hrun, hnext⟩ := h.run.foldl received
    (show s.tcp.sender.nextSeqno + 65535 * ops.length < 2 ^ 30 by omega) few
  rw [← does.shadow] at hrun hnext
  have hnext : s'.tcp.sender.nextSeqno ≤ s.tcp.sender.nextSeqno + 65535 * ops.length := hnext
  exact ⟨steady, inv, hrun, by omega⟩

/-- **The four rules keep a socket paired**, if it hears only what the link speaks of. -/
theorem upholds_paired (link : FdAdapter.Link Hears Inv peer.conn.segmentsOut)
    (few : peer.conn.sender.nextSeqno < 2 ^ 30) :
    Upholds (rule (α := α)) (hearing Hears) (fun n _ => Paired cfg cfg' side Inv peer n) Owed where
  spare := fun h => ⟨h.steady, h.inv, h.run, by have := h.few; omega⟩
  cancel := by
    intro n pre r post s _ h
    obtain ⟨ops, hdoes, hnone⟩ := cancel_does r s
    refine h.does hdoes few (h.steady.cancel r) ?_ fun got hgot => absurd hgot (hnone got)
    cases r <;> exact h.inv
  asks := fun _ _ _ hasked => asks_owed hasked
  owedCancel := owed_cancel
  owedCallback := fun hne _ howed _ hcalled => owed_callback hne howed hcalled
  callback := by
    intro n rules r answers s s' _ h _ hanswers hcalled
    have hsteady := h.steady.callback hcalled
    obtain ⟨ops, hdoes, ⟨seg, hrule, hread, hhanded, rfl⟩ | ⟨hwrite, hhanded, rfl⟩ |
      ⟨hadapter, hhanded, hnone⟩⟩ := callback_cases hcalled
    · obtain ⟨p, hp⟩ := LawfulFdAdapter.read_answer hread
      rw [hp] at hread
      obtain ⟨hinv, hlike⟩ := link.read h.inv (hanswers hrule p hp) hread
      refine h.does hdoes few hsteady (hhanded ▸ hinv) fun got hgot => ?_
      obtain ⟨got', hgot', hop⟩ := List.mem_map.mp hgot
      cases hop
      exact hlike got (Option.mem_toList.mp hgot')
    · refine h.does hdoes few hsteady (hhanded ▸ ?_) fun got hgot => absurd hgot List.not_mem_nil
      exact writeSegments_keeps link.write h.inv h.steady.small hwrite
    · refine h.does hdoes few hsteady ?_ fun got hgot => absurd hgot (hnone got)
      rw [hadapter, hhanded]
      exact h.inv
  busy := fun _ h _ _ hcalled => h.steady.busy hcalled

/-- **A turn is a few steps of two connections.** -/
theorem Steady.turn_refines {c : List RuleName × TCPSpongeSocket α} (h : c.2.Steady)
    (sub : c.1.Sublist rules) (link : FdAdapter.Link Hears Inv peer.conn.segmentsOut)
    (inv : Inv c.2.adapter c.2.handed)
    (run : Duplex.Reached cfg cfg' (Duplex.join side c.2.shadow peer))
    (few : c.2.tcp.sender.nextSeqno < 2 ^ 29) (few' : peer.conn.sender.nextSeqno < 2 ^ 29)
    {event : Event α} (heard : ∀ p, event.packet? = some p → Hears p)
    {more : Bool} {kept : List RuleName} (turned : TCPSpongeSocket.turn c event = .ok (more, kept, s')) :
    Duplex.Reached cfg cfg' (Duplex.join side s'.shadow peer) ∧ Inv s'.adapter s'.handed := by
  obtain ⟨result, waited, hwait, hticked⟩ := turn_cases turned
  have hfew : peer.conn.sender.nextSeqno < 2 ^ 30 := by omega
  have hlength := sub.length_le
  have hpaired : Paired cfg cfg' side Inv peer (1 + c.1.length) c.2 :=
    ⟨h, inv, run, by
      have hfour : rules.length = 4 := rfl
      omega⟩
  obtain ⟨hwaited, -⟩ := (upholds_paired link hfew).wait (n := 1) (sub.nodup (by decide)) hpaired
    (hearing_polls heard) hwait
  rcases hticked with rfl | ⟨adapter, htick, rfl⟩
  · exact ⟨hwaited.run, hwaited.inv⟩
  · have hwrote := (LawfulFdAdapter.tick_ok hwaited.steady.wrote htick).1
    have hdoes := does_tick waited adapter event.ms
    have hticked := hwaited.does hdoes hfew (hwaited.steady.does hdoes hwrote) (link.tick hwaited.inv htick)
      fun got hgot => by cases List.mem_singleton.mp hgot
    exact ⟨hticked.run, hticked.inv⟩

end TCPSpongeSocket

/-! ## Two sockets -/

open TCPSpongeSocket (RuleName Event Starts Steady advance returns rules)

/-- Two sockets, each with the rules that its loop has left. -/
structure SocketPair (α : Type) where
  left : List RuleName × TCPSpongeSocket α
  right : List RuleName × TCPSpongeSocket α

namespace SocketPair

variable {α : Type}

def on (p : SocketPair α) : Side → List RuleName × TCPSpongeSocket α
  | .left => p.left
  | .right => p.right

/-- The two connections. -/
def shadow (p : SocketPair α) : Duplex := ⟨p.left.2.shadow, p.right.2.shadow⟩

theorem shadow_eq (p : SocketPair α) (side : Side) :
    p.shadow = Duplex.join side (p.on side).2.shadow (p.on side.other).2.shadow := by
  cases side <;> rfl

variable [FdAdapter α]

/-- One of the two takes a turn. -/
def step (p : SocketPair α) : Side × Event α → SocketPair α
  | (.left, event) => { p with left := advance p.left event }
  | (.right, event) => { p with right := advance p.right event }

variable [LawfulFdAdapter α]

/-- A packet comes from the other end, or it is noise. -/
def Delivers (p : SocketPair α) (side : Side) (packet : FdAdapter.Packet α) : Prop :=
  FdAdapter.bytes packet ∈ FdAdapter.wire (p.on side.other).2.adapter ∨
    FdAdapter.Conveys (fun a => LawfulFdAdapter.port a = LawfulFdAdapter.port (p.on side).2.adapter)
      packet []

/-- The turn does not throw, and what it reads is as assumed; either end has used fewer than `2 ^ 29`
sequence numbers. -/
structure Allowed (p : SocketPair α) (op : Side × Event α) : Prop where
  returned : returns (p.on op.1) op.2 = true
  delivers : ∀ packet, op.2.packet? = some packet → p.Delivers op.1 packet
  few : ∀ side, (p.on side).2.tcp.sender.nextSeqno < 2 ^ 29

/-- What holds of two sockets along their turns. -/
structure Refines (cfg cfg' : TCPConfig) (p : SocketPair α) : Prop where
  steady : ∀ side, (p.on side).2.Steady ∧ (p.on side).1.Sublist rules
  run : Duplex.Reached cfg cfg' p.shadow

variable {p : SocketPair α} {cfg cfg' : TCPConfig}

/-- What is delivered conveys only what the other end has sent. -/
theorem Delivers.conveys {side : Side} {packet : FdAdapter.Packet α} (h : p.Delivers side packet)
    (steady : (p.on side.other).2.Steady) :
    FdAdapter.Conveys (fun a => LawfulFdAdapter.port a = LawfulFdAdapter.port (p.on side).2.adapter)
      packet (p.on side.other).2.shadow.conn.segmentsOut := by
  intro a writes a' got hport hread
  rcases h with hwire | hnoise
  · obtain ⟨seg, hseg, halike⟩ := LawfulFdAdapter.conveys steady.wrote hwire a writes a' got trivial hread
    exact ⟨seg, List.mem_append_left _ hseg, halike⟩
  · obtain ⟨seg, hseg, -⟩ := hnoise a writes a' got hport hread
    exact absurd hseg List.not_mem_nil

theorem Refines.step (h : Refines cfg cfg' p) {op : Side × Event α} (allowed : p.Allowed op) :
    Refines cfg cfg' (p.step op) := by
  obtain ⟨side, event⟩ := op
  obtain ⟨hreturned, hdelivers, hfew⟩ := allowed
  obtain ⟨hsteady, hsub⟩ := h.steady side
  obtain ⟨hother, hotherSub⟩ := h.steady side.other
  obtain ⟨more, hturn⟩ := TCPSpongeSocket.advance_eq hreturned
  obtain ⟨hturned, hkept⟩ := hsteady.turn (hsub.nodup (by decide)) hturn
  obtain ⟨hrun, -⟩ := hsteady.turn_refines hsub (LawfulFdAdapter.link _ _) ⟨hsteady.wrote, rfl⟩
    (shadow_eq p side ▸ h.run) (hfew side) (hfew side.other)
    (fun packet hpacket => (hdelivers packet hpacket).conveys hother) hturn
  cases side with
  | left =>
    refine ⟨fun side => ?_, hrun⟩
    cases side with
    | left => exact ⟨hturned, hkept.trans hsub⟩
    | right => exact ⟨hother, hotherSub⟩
  | right =>
    refine ⟨fun side => ?_, hrun⟩
    cases side with
    | left => exact ⟨hother, hotherSub⟩
    | right => exact ⟨hturned, hkept.trans hsub⟩

theorem refines_start {adapter adapter' : α} {s s' : TCPSpongeSocket α}
    (fresh : LawfulFdAdapter.Wrote adapter []) (fresh' : LawfulFdAdapter.Wrote adapter' [])
    (starts : Starts adapter s) (starts' : Starts adapter' s') :
    ∃ cfg cfg', Refines cfg cfg' (⟨(rules, s), (rules, s')⟩ : SocketPair α) := by
  obtain ⟨cfg, hleft⟩ := starts.shadow_eq
  obtain ⟨cfg', hright⟩ := starts'.shadow_eq
  refine ⟨cfg, cfg', fun side => ?_, Duplex.reached_start hleft hright⟩
  cases side with
  | left => exact ⟨starts.steady fresh, .refl _⟩
  | right => exact ⟨starts'.steady fresh', .refl _⟩

/-- **What an owner is given is a prefix of what the other owner wrote**, in every run of two sockets, over
any of the adapters. -/
theorem owners_read_written {adapter adapter' : α} {s s' : TCPSpongeSocket α}
    (fresh : LawfulFdAdapter.Wrote adapter []) (fresh' : LawfulFdAdapter.Wrote adapter' [])
    (starts : Starts adapter s) (starts' : Starts adapter' s')
    (run : Runs.Reach step Allowed ⟨(rules, s), (rules, s')⟩ p) (side : Side) :
    (p.on side).2.threadData.delivered <+: (p.on side.other).2.threadData.received := by
  obtain ⟨cfg, cfg', hstart⟩ := refines_start fresh fresh' starts starts'
  have hrefines := run.invariant (Refines cfg cfg') hstart fun _ _ h allowed => h.step allowed
  obtain ⟨⟨_, _, hleft⟩, _, _, hright⟩ := Duplex.joint_of_run hrefines.run
  cases side with
  | left => exact hright.reads
  | right => exact hleft.reads

/-- Over UDP: the handshake, and then the byte that the right owner wrote reaches the left one. -/
theorem owners_read_written_byte :
    let near : InetAddress := { ipv4Numeric := 1, port := 10 }
    let far : InetAddress := { ipv4Numeric := 2, port := 20 }
    let cTcp : TCPConfig := { recvCapacity := 8, sendCapacity := 8 }
    let ready (r : RuleName) (answers : TCPSpongeSocket.Answers TCPOverUDPSocketAdapter) :
      Event TCPOverUDPSocketAdapter :=
      { poll := .ready fun r' => if r' = r then { ready := some answers } else {} }
    let packet (source : InetAddress) (payload : Bytes) :=
      ready .readDatagram { packet := .ok (source, payload) }
    let s : TCPSpongeSocket TCPOverUDPSocketAdapter :=
      { tcp := (TCPConnection.new cTcp).connect
        adapter := FdAdapter.setConfig {} { source := near, destination := far } }
    let s' : TCPSpongeSocket TCPOverUDPSocketAdapter :=
      .initializeTCP (FdAdapter.setListening (FdAdapter.setConfig {} { source := far }) true) cTcp
    let p : SocketPair TCPOverUDPSocketAdapter := [(.left, ready .writeDatagram {}),
      (.right, packet near [0, 10, 0, 20, 0, 0, 0, 0, 0, 0, 0, 0, 80, 2, 0, 8, 175, 215, 0, 0]),
      (.right, ready .writeDatagram {}),
      (.left, packet far [0, 20, 0, 10, 0, 0, 0, 0, 0, 0, 0, 1, 80, 18, 0, 8, 175, 198, 0, 0]),
      (.left, ready .writeDatagram {}),
      (.right, packet near [0, 10, 0, 20, 0, 0, 0, 1, 0, 0, 0, 1, 80, 16, 0, 8, 175, 199, 0, 0]),
      (.right, ready .readThread { data := .ok [7] }), (.right, ready .writeDatagram {}),
      (.left, packet far [0, 20, 0, 10, 0, 0, 0, 1, 0, 0, 0, 1, 80, 16, 0, 8, 168, 199, 0, 0, 7]),
      (.left, ready .writeThread { count := .ok 1 })].foldl step ⟨(rules, s), (rules, s')⟩
    p.left.2.threadData.delivered = [7] ∧
      p.left.2.threadData.delivered <+: p.right.2.threadData.received := by
  intro near far cTcp ready packet s s' p
  have fresh : LawfulFdAdapter.Wrote ({} : TCPOverUDPSocketAdapter) [] :=
    fun _ hsent => absurd hsent List.not_mem_nil
  have starts : Starts ({} : TCPOverUDPSocketAdapter) s :=
    ⟨cTcp, { source := near, destination := far }, .inl (TCPSpongeSocket.connect_ok _ _ _)⟩
  have starts' : Starts ({} : TCPOverUDPSocketAdapter) s' := ⟨cTcp, { source := far }, .inr rfl⟩
  -- every packet of this run comes from the other end, which can be evaluated
  have run : Runs.Reach step (fun p op => returns (p.on op.1) op.2 = true ∧
      (op.2.packet?.all fun packet =>
        decide (FdAdapter.bytes packet ∈ FdAdapter.wire (p.on op.1.other).2.adapter)) = true ∧
      p.left.2.tcp.sender.nextSeqno < 2 ^ 29 ∧ p.right.2.tcp.sender.nextSeqno < 2 ^ 29)
      ⟨(rules, s), (rules, s')⟩ p := Runs.reach_foldl .start (by decide +kernel)
  have hgiven : p.left.2.threadData.delivered = [7] := by decide +kernel
  clear_value p s s'
  refine ⟨hgiven, owners_read_written fresh fresh starts starts' (p := p)
    (run.map id (fun _ _ => rfl) fun p op h => ⟨h.1, fun packet hpacket => .inl ?_, fun side => ?_⟩) .left⟩
  · have hwire := h.2.1
    rw [hpacket] at hwire
    exact of_decide_eq_true hwire
  · cases side with
    | left => exact h.2.2.1
    | right => exact h.2.2.2

end SocketPair

end Sponge
