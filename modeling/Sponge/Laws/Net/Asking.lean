import Sponge.Laws.Net.ArpCache
import Sponge.Laws.Net.Codec
import Sponge.Lib.Limiter

/-!
# Laws.Net.Asking — how often an address is asked for

An `Asking` is an interface with the time that has passed and a record of every frame it queued, each with
the time it was queued. A frame asks for an address when it is broadcast and reads as an ARP request for
it (`EthernetFrame.asksFor`); so what counts as a request is decided by the frame's bytes, not by the call
that queued it.

The log `_ip_arp_time` is a limiter of those requests (`Limiter.Limits`). Only `broad_cast` asks, and only
for an address the log does not hold; every other call leaves the log alone and queues frames that ask for
nothing (`Mute`). Mappings come and go beside it: a mapping that is learned or expires does not touch the
log.

Datagrams that cannot be serialized are not excluded here. A call that throws keeps what it changed.
-/

namespace Sponge

open Limiter (Limits times)

/-- The address a frame asks for: it is broadcast, and its payload is an ARP request. -/
def EthernetFrame.asksFor (f : EthernetFrame) : Option UInt32 :=
  if f.header.dst = ETHERNET_BROADCAST ∧ f.header.type = EthernetHeader.TYPE_ARP then
    match f.payload.toBuffer with
    | .error _ => none
    | .ok buffer =>
      let parsed := ARPMessage.parse {} buffer
      if parsed.1 = .noError ∧ parsed.2.opcode = ARPMessage.OPCODE_REQUEST then
        some parsed.2.targetIpAddress
      else none
  else none

/-- A frame of another type asks for nothing. -/
theorem EthernetFrame.asksFor_of_type {f : EthernetFrame} (h : f.header.type ≠ EthernetHeader.TYPE_ARP) :
    f.asksFor = none := by
  unfold asksFor
  rw [if_neg fun hc => h hc.2]

/-- A frame with an ARP message asks for the target if it is broadcast and the message is a request. -/
theorem EthernetFrame.asksFor_message {f : EthernetFrame} {msg : ARPMessage} {payload : Bytes}
    (type : f.header.type = EthernetHeader.TYPE_ARP) (supported : msg.supported = true)
    (written : msg.serialize = .ok payload) (carries : f.payload = BufferList.ofString payload) :
    f.asksFor = if f.header.dst = ETHERNET_BROADCAST ∧ msg.opcode = ARPMessage.OPCODE_REQUEST then
      some msg.targetIpAddress else none := by
  have hbuffer : f.payload.toBuffer = .ok (Buffer.ofString payload) := by
    rw [carries]
    rfl
  have hparsed := ARPMessage.parse_serialize supported written {} (Buffer.str_ofString payload)
  unfold asksFor
  rw [hbuffer]
  dsimp only
  rw [hparsed]
  by_cases hdst : f.header.dst = ETHERNET_BROADCAST
  · simp [hdst, type]
  · simp [hdst]

namespace NetworkInterface

variable {n n' n'' : NetworkInterface}

/-- A call that asks for nothing: the log, the clock and the own address are as they were, and no frame
that it queued asks. -/
structure Mute (n n' : NetworkInterface) : Prop where
  frames : ∃ frames, n'.framesOut = n.framesOut ++ frames ∧ ∀ f ∈ frames, f.asksFor = none
  log : n'.ipArpTime = n.ipArpTime
  clock : n'.crtTime = n.crtTime
  own : n'.ipAddress = n.ipAddress

theorem Mute.refl (n : NetworkInterface) : Mute n n :=
  ⟨⟨[], by simp⟩, rfl, rfl, rfl⟩

theorem Mute.trans (first : Mute n n') (second : Mute n' n'') : Mute n n'' := by
  obtain ⟨frames, hframes, hmute⟩ := first.frames
  obtain ⟨more, hmore, hmute'⟩ := second.frames
  refine ⟨⟨frames ++ more, ?_, ?_⟩, second.log.trans first.log, second.clock.trans first.clock,
    second.own.trans first.own⟩
  · rw [hmore, hframes, List.append_assoc]
  · intro f hf
    rcases List.mem_append.mp hf with hf | hf
    · exact hmute f hf
    · exact hmute' f hf

/-- Queueing one frame that asks for nothing. -/
theorem mute_sendPayload (n : NetworkInterface) {eaddr : EthernetAddress} {payload : BufferList}
    {type : UInt16}
    (mute : EthernetFrame.asksFor
      { header := { dst := eaddr, src := n.ethernetAddress, type }, payload } = none) :
    Mute n (n.sendPayload eaddr payload type) := by
  refine ⟨⟨_, rfl, ?_⟩, rfl, rfl, rfl⟩
  intro f hf
  rw [List.mem_singleton.mp hf]
  exact mute

theorem mute_sendSerialized (n : NetworkInterface) (eaddr : EthernetAddress) (dgram : IPv4Datagram) :
    Mute n (n.sendSerialized eaddr dgram).1 := by
  rcases n.sendSerialized_cases eaddr dgram with ⟨e, heq, -⟩ | ⟨payload, -, -, heq⟩
  · rw [heq]
    exact .refl n
  · rw [heq]
    apply mute_sendPayload
    apply EthernetFrame.asksFor_of_type
    show EthernetHeader.TYPE_IPv4 ≠ EthernetHeader.TYPE_ARP
    decide

theorem mute_learn (n : NetworkInterface) (ip : UInt32) (eaddr : EthernetAddress) :
    Mute n (n.learn ip eaddr).1 := by
  unfold learn
  generalize hlearned : ({ n with ipMap := n.ipMap.insert ip _ } : NetworkInterface) = learned
  have hmute : Mute n learned := by
    subst hlearned
    exact ⟨⟨[], by simp⟩, rfl, rfl, rfl⟩
  cases n.unknownDatagramMap.find? ip with
  | none => exact hmute
  | some dgram =>
    have hsent := hmute.trans (mute_sendSerialized learned eaddr dgram)
    dsimp only
    generalize learned.sendSerialized eaddr dgram = out at *
    obtain ⟨sent, result⟩ := out
    cases result with
    | error e => exact hsent
    | ok _ => exact ⟨hsent.frames, hsent.log, hsent.clock, hsent.own⟩

theorem mute_answer (n : NetworkInterface) (msg : ARPMessage) : Mute n (n.answer msg).1 := by
  unfold answer
  cases n.ipAddress.ipv4Numeric with
  | error e => exact .refl n
  | ok own =>
    dsimp only
    split
    · generalize hreply : ARPMessage.mk _ _ _ _ _ _ _ _ _ = reply
      have hsupported : reply.supported = true := by
        subst hreply
        rfl
      have hopcode : reply.opcode ≠ ARPMessage.OPCODE_REQUEST := by
        subst hreply
        show (2 : UInt16) ≠ 1
        decide
      obtain ⟨payload, hwritten⟩ := ARPMessage.serialize_supported hsupported
      rw [sendArp, hwritten]
      apply mute_sendPayload
      rw [EthernetFrame.asksFor_message rfl hsupported hwritten rfl, if_neg fun hc => hopcode hc.2]
    · exact .refl n

theorem mute_receiveArp (n : NetworkInterface) (msg : ARPMessage) : Mute n (n.receiveArp msg).1 := by
  unfold receiveArp
  have hlearn := n.mute_learn msg.senderIpAddress msg.senderEthernetAddress
  generalize n.learn msg.senderIpAddress msg.senderEthernetAddress = out at *
  obtain ⟨learned, result⟩ := out
  cases result with
  | error e => exact hlearn
  | ok _ =>
    dsimp only
    split
    · exact hlearn.trans (learned.mute_learn _ _)
    · split
      · exact hlearn.trans (learned.mute_answer msg)
      · exact hlearn

/-- **A frame that is received asks for nothing.** -/
theorem mute_recvFrame (n : NetworkInterface) (frame : EthernetFrame) : Mute n (n.recvFrame frame).1 := by
  rw [recvFrame_fst]
  cases n.acceptedArp frame with
  | none => exact .refl n
  | some msg => exact n.mute_receiveArp msg

/-- A call that asks for an address the log does not hold, and notes it. -/
structure Asks (ip : UInt32) (n n' : NetworkInterface) : Prop where
  frames : ∃ f, n'.framesOut = n.framesOut ++ [f] ∧ f.asksFor = some ip
  free : n.ipArpTime.find? ip = none
  log : n'.ipArpTime = n.ipArpTime.insert ip (Word64.add n.crtTime DST_IP_EXPIRE_TIME_MS)
  clock : n'.crtTime = n.crtTime
  own : n'.ipAddress = n.ipAddress

/-- **What `broad_cast` asks for**: the address, if the log does not hold it and there is an own address to
ask from. -/
theorem broadCast_asks (n : NetworkInterface) (ip : UInt32) (port : UInt16) :
    (Mute n (n.broadCast (.inet ip port)).1 ∧
        (n.ipArpTime.find? ip ≠ none ∨ ∀ own, n.ipAddress.ipv4Numeric ≠ .ok own)) ∨
      Asks ip n (n.broadCast (.inet ip port)).1 := by
  have hcontains : n.ipArpTime.contains ip = true ↔ n.ipArpTime.find? ip ≠ none := by
    rw [Ne, SortedMap.find?_eq_none]
    simp [SortedMap.contains]
  rcases n.broadCast_cases (show (Address.inet ip port).ipv4Numeric = .ok ip from rfl) with
    ⟨hlately, heq⟩ | ⟨hfree, ⟨e, hown, heq⟩ | ⟨own, payload, -, hwritten, heq⟩⟩
  · rw [heq]
    exact .inl ⟨.refl n, .inl (hcontains.mp hlately)⟩
  · rw [heq]
    refine .inl ⟨.refl n, .inr fun own hok => ?_⟩
    rw [hown] at hok
    cases hok
  · rw [heq]
    refine .inr ⟨⟨_, rfl, ?_⟩, ?_, rfl, rfl, rfl⟩
    · rw [EthernetFrame.asksFor_message rfl (show (n.request own ip).supported = true from rfl) hwritten rfl]
      exact if_pos ⟨rfl, rfl⟩
    · by_contra hheld
      rw [hcontains.mpr hheld] at hfree
      cases hfree

/-- **What `send_datagram` asks for**: an unresolved hop, if the log does not hold it and there is an own
address to ask from. -/
theorem sendDatagram_asks (n : NetworkInterface) (dgram : IPv4Datagram) (ip : UInt32) (port : UInt16) :
    (Mute n (n.sendDatagram dgram (.inet ip port)).1 ∧
        (n.ipMap.find? ip ≠ none ∨ n.ipArpTime.find? ip ≠ none ∨
          ∀ own, n.ipAddress.ipv4Numeric ≠ .ok own)) ∨
      Asks ip n (n.sendDatagram dgram (.inet ip port)).1 := by
  unfold sendDatagram Address.ipv4Numeric
  dsimp only
  cases hfind : n.ipMap.find? ip with
  | some mapping => exact .inl ⟨n.mute_sendSerialized mapping.1 dgram, .inl (Option.some_ne_none _)⟩
  | none =>
    dsimp only
    generalize hkept : NetworkInterface.mk _ _ _ _ _ _ _ = kept
    have hmute : Mute n kept := by
      subst hkept
      exact ⟨⟨[], by simp⟩, rfl, rfl, rfl⟩
    have hframes : kept.framesOut = n.framesOut := hkept ▸ rfl
    rcases kept.broadCast_asks ip port with ⟨hquiet, hwhy⟩ | hasks
    · rw [hmute.log, hmute.own] at hwhy
      exact .inl ⟨hmute.trans hquiet, .inr hwhy⟩
    · refine .inr ⟨hframes ▸ hasks.frames, hmute.log ▸ hasks.free, ?_, hasks.clock.trans hmute.clock,
        hasks.own.trans hmute.own⟩
      rw [hasks.log, hmute.log, hmute.clock]

end NetworkInterface

/-! ## Whole runs -/

/-- An interface with the time passed, and every frame it queued with the time it was queued. -/
structure Asking where
  net : NetworkInterface
  elapsed : Nat
  sent : List (Nat × EthernetFrame)

namespace Asking

def new (ethernetAddress : EthernetAddress) (ipAddress : Address) : Asking :=
  ⟨NetworkInterface.new ethernetAddress ipAddress, 0, []⟩

variable (s : Asking)

/-- Move on to `net`, and record the frames it has queued since. -/
def moveTo (net : NetworkInterface) : Asking :=
  { s with
    net
    sent := s.sent ++ (net.framesOut.drop s.net.framesOut.length).map fun f => (s.elapsed, f) }

/-- One call. What it changed before a throw stays. -/
def step : Resolution.Op → Asking
  | .send dgram nextHop => s.moveTo (s.net.sendDatagram dgram nextHop).1
  | .recv frame => s.moveTo (s.net.recvFrame frame).1
  | .tick ms => { s with net := s.net.tick ms, elapsed := s.elapsed + ms }

/-- The time that passes stays below `2 ^ 63`. -/
def Allowed : Resolution.Op → Prop
  | .tick ms => s.elapsed + ms < 2 ^ 63
  | _ => True

instance : ∀ op, Decidable (Allowed s op)
  | .send _ _ | .recv _ => inferInstanceAs (Decidable True)
  | .tick _ => inferInstanceAs (Decidable (_ < _))

/-- The addresses asked for, each with the time. -/
def asked : List (UInt32 × Nat) := s.sent.filterMap fun e => e.2.asksFor.map fun ip => (ip, e.1)

/-- When an address was asked for, oldest first. -/
def requests (ip : UInt32) : List Nat := times s.asked ip

/-- What holds between calls: the record is complete, and the log limits the requests in it. -/
structure Correct (ipAddress : Address) (s : Asking) : Prop where
  own : s.net.ipAddress = ipAddress
  clock : s.net.crtTime = s.elapsed
  early : s.elapsed < 2 ^ 63
  recorded : s.sent.map Prod.snd = s.net.framesOut
  limits : Limits NetworkInterface.DST_IP_EXPIRE_TIME_MS s.elapsed s.asked s.net.ipArpTime

variable {s} {ipAddress : Address}

theorem correct_new (ethernetAddress : EthernetAddress) (ipAddress : Address) :
    Correct ipAddress (new ethernetAddress ipAddress) :=
  ⟨rfl, rfl, Nat.two_pow_pos 63, rfl, Limiter.limits_empty _ _⟩

/-- What is recorded of an interface that queued `frames`. -/
theorem sent_moveTo {net : NetworkInterface} {frames : List EthernetFrame}
    (queued : net.framesOut = s.net.framesOut ++ frames) :
    (s.moveTo net).sent = s.sent ++ frames.map fun f => (s.elapsed, f) := by
  simp [moveTo, queued]

theorem recorded_moveTo (h : Correct ipAddress s) {net : NetworkInterface}
    {frames : List EthernetFrame} (queued : net.framesOut = s.net.framesOut ++ frames) :
    (s.moveTo net).sent.map Prod.snd = net.framesOut := by
  rw [sent_moveTo queued, List.map_append, h.recorded, queued, List.map_map]
  congr 1
  exact List.map_id frames

/-- Frames that ask for nothing leave the requests as they were. -/
theorem asked_mute {net : NetworkInterface} (mute : NetworkInterface.Mute s.net net) :
    (s.moveTo net).asked = s.asked := by
  obtain ⟨frames, hqueued, hnone⟩ := mute.frames
  have hnothing : (frames.map fun f => (s.elapsed, f)).filterMap
      (fun e => e.2.asksFor.map fun ip => (ip, e.1)) = [] := by
    rw [List.filterMap_eq_nil_iff]
    intro e he
    obtain ⟨f, hf, rfl⟩ := List.mem_map.mp he
    simp [hnone f hf]
  rw [asked, sent_moveTo hqueued, List.filterMap_append, hnothing, List.append_nil, asked]

/-- A frame that asks is one request more, now. -/
theorem asked_asks {net : NetworkInterface} {ip : UInt32} (asks : NetworkInterface.Asks ip s.net net) :
    (s.moveTo net).asked = s.asked ++ [(ip, s.elapsed)] := by
  obtain ⟨f, hqueued, hasks⟩ := asks.frames
  rw [asked, sent_moveTo hqueued, List.filterMap_append, asked]
  simp [hasks]

theorem Correct.mute (h : Correct ipAddress s) {net : NetworkInterface}
    (mute : NetworkInterface.Mute s.net net) : Correct ipAddress (s.moveTo net) := by
  obtain ⟨frames, hqueued, -⟩ := mute.frames
  refine ⟨mute.own.trans h.own, mute.clock.trans h.clock, h.early, recorded_moveTo h hqueued, ?_⟩
  rw [asked_mute mute]
  show Limits _ s.elapsed s.asked net.ipArpTime
  rw [mute.log]
  exact h.limits

/-- **An address that is asked for was free**, so the log still limits the requests. -/
theorem Correct.asks (h : Correct ipAddress s) {net : NetworkInterface} {ip : UInt32}
    (asks : NetworkInterface.Asks ip s.net net) : Correct ipAddress (s.moveTo net) := by
  obtain ⟨f, hqueued, -⟩ := asks.frames
  have hexpiry : Word64.add s.net.crtTime NetworkInterface.DST_IP_EXPIRE_TIME_MS =
      s.elapsed + NetworkInterface.DST_IP_EXPIRE_TIME_MS := by
    have hearly := h.early
    rw [h.clock]
    exact Word64.add_eq (by unfold NetworkInterface.DST_IP_EXPIRE_TIME_MS; omega)
  refine ⟨asks.own.trans h.own, asks.clock.trans h.clock, h.early, recorded_moveTo h hqueued, ?_⟩
  rw [asked_asks asks]
  show Limits _ s.elapsed _ net.ipArpTime
  rw [asks.log, hexpiry]
  exact h.limits.pass (by decide) asks.free

theorem Correct.send (h : Correct ipAddress s) (dgram : IPv4Datagram) (nextHop : Address) :
    Correct ipAddress (s.step (.send dgram nextHop)) := by
  cases nextHop with
  | other raw => exact h.mute (.refl s.net)
  | inet ip port =>
    rcases s.net.sendDatagram_asks dgram ip port with ⟨hmute, -⟩ | hasks
    · exact h.mute hmute
    · exact h.asks hasks

theorem Correct.tick (h : Correct ipAddress s) {ms : Nat} (early : s.elapsed + ms < 2 ^ 63) :
    Correct ipAddress (s.step (.tick ms)) := by
  have hclock : Word64.add s.net.crtTime ms = s.elapsed + ms := by
    rw [h.clock]
    exact Word64.add_eq (by omega)
  refine ⟨h.own, hclock, early, h.recorded, ?_⟩
  show Limits _ (s.elapsed + ms) s.asked (s.net.ipArpTime.filter fun e => Word64.add s.net.crtTime ms < e.2)
  rw [hclock]
  exact h.limits.expire (Nat.le_add_right _ _)

/-- **ARP requests are rate limited.** In every run, the record has every frame the interface queued; any
two requests for an address are five seconds apart; and a datagram for an unresolved address is followed by
a request at once, whenever the address was not asked for in the last five seconds. -/
theorem requests_limited {ethernetAddress : EthernetAddress} {ipAddress : Address}
    (run : Runs.Reach step Allowed (new ethernetAddress ipAddress) s) :
    s.sent.map Prod.snd = s.net.framesOut ∧
      (∀ ip, (s.requests ip).Pairwise fun t t' => t + 5000 ≤ t') ∧
      ∀ (dgram : IPv4Datagram) (ip : UInt32) (port : UInt16),
        ipAddress.ipv4Numeric.isOk = true → s.net.ipMap.find? ip = none →
        (∀ t ∈ s.requests ip, t + 5000 ≤ s.elapsed) →
        (s.step (.send dgram (.inet ip port))).requests ip = s.requests ip ++ [s.elapsed] := by
  have h : Correct ipAddress s := by
    refine run.invariant (Correct ipAddress) (correct_new ethernetAddress ipAddress) ?_
    intro s op ih ok
    cases op with
    | send dgram nextHop => exact ih.send dgram nextHop
    | recv frame => exact ih.mute (s.net.mute_recvFrame frame)
    | tick ms => exact ih.tick ok
  refine ⟨h.recorded, h.limits.spaced, ?_⟩
  intro dgram ip port hinet hunresolved hlately
  have hfree := (h.limits.free_iff ip).mpr hlately
  rcases s.net.sendDatagram_asks dgram ip port with ⟨-, hknown | hheld | hown⟩ | hasks
  · exact absurd hunresolved hknown
  · exact absurd hfree hheld
  · rw [h.own] at hown
    cases hnumeric : ipAddress.ipv4Numeric with
    | ok own => exact absurd hnumeric (hown own)
    | error e =>
      rw [hnumeric] at hinet
      cases hinet
  · show times (s.moveTo _).asked ip = _
    rw [asked_asks hasks, Limiter.times_append, Limiter.times_self]
    rfl

/-- Host 9 is asked for; a second datagram 4999 ms later asks for nothing, one at 5000 ms asks again. The
reply comes and its mapping expires, and the next datagram asks once more. -/
theorem requests_limited_thrice :
    let s := [.send (Resolution.emptyDatagram 1) (.inet 9 0), .tick 4999,
      .send (Resolution.emptyDatagram 2) (.inet 9 0), .tick 1,
      .send (Resolution.emptyDatagram 3) (.inet 9 0), .recv Resolution.replyFrame, .tick 30000].foldl step
        (new EthernetAddress.zero (.inet 7 0))
    s.requests 9 = [0, 5000] ∧
      (s.step (.send (Resolution.emptyDatagram 4) (.inet 9 0))).requests 9 = [0, 5000, 35000] := by
  intro s
  have hrequests : s.requests 9 = [0, 5000] := by decide +kernel
  have helapsed : s.elapsed = 35000 := by decide +kernel
  obtain ⟨-, -, hasks⟩ := requests_limited (s := s) (Runs.reach_foldl .start (by decide +kernel))
  have hnext := hasks (Resolution.emptyDatagram 4) 9 0 rfl (by decide +kernel)
    (by rw [hrequests, helapsed]; decide)
  rw [hrequests, helapsed] at hnext
  exact ⟨hrequests, hnext⟩

end Asking

end Sponge
