import Sponge.Lib.Run
import Sponge.Laws.Net.Interface
import Sponge.Laws.Net.Parsers
import Sponge.Net.Router

/-!
# Laws.Net.Router — what keeps a router from throwing

A router throws when it serializes a datagram whose header `serialize` rejects. Such a datagram can
come from the wire, since parsing accepts headers that serializing does not; it then stays at the
front of its queue, and `route` throws again and again. Each time its time to live is lowered where it
stands, so that it is dropped in the end, at most 254 calls later.

`Sound` says that nothing an interface holds can be the cause: what waits for a hop is well-formed,
and what is queued is well-formed or has no time left to live. Every member call keeps it and returns
(`Safe`), as long as no ill-formed datagram that is still alive comes in.
-/

namespace Sponge

namespace EthernetFrame

/-- The frame is addressed to the interface, or to all. -/
def ForMe (frame : EthernetFrame) (own : EthernetAddress) : Prop :=
  frame.header.dst = own ∨ frame.header.dst = ETHERNET_BROADCAST

instance (frame : EthernetFrame) (own : EthernetAddress) : Decidable (frame.ForMe own) :=
  inferInstanceAs (Decidable (_ ∨ _))

/-- The payload is in one piece. -/
def Contiguous (frame : EthernetFrame) : Prop := frame.payload.toBuffer.isOk = true

instance (frame : EthernetFrame) : Decidable frame.Contiguous := inferInstanceAs (Decidable (_ = _))

/-- A datagram for the interface that `IPv4Datagram::parse` accepts states version 4 and a header of
at least five words, or a time to live of at most one. -/
def Benign (frame : EthernetFrame) (own : EthernetAddress) : Prop :=
  frame.ForMe own → frame.header.type = EthernetHeader.TYPE_IPv4 →
    ∀ buffer ∈ frame.payload.toBuffer.toOption, (IPv4Datagram.parse {} buffer).1 = .noError →
      wireTtl buffer.str ≤ 1 ∨ wireVer buffer.str = 4 ∧ 5 ≤ wireHlen buffer.str

instance (frame : EthernetFrame) (own : EthernetAddress) : Decidable (frame.Benign own) :=
  inferInstanceAs (Decidable (_ → _ → ∀ buffer ∈ _, _ → _ ∨ _))

end EthernetFrame

/-! ## One interface -/

namespace NetworkInterface

variable {n : NetworkInterface}

/-- Nothing the interface holds makes a call throw. -/
structure Sound (n : NetworkInterface) : Prop where
  own : ∃ ip, n.ipAddress.ipv4Numeric = .ok ip
  pending : ∀ ip d, n.unknownDatagramMap.find? ip = some d → d.wellFormed = true

/-- The call returned, and left a sound interface. -/
structure Safe {α : Type} (out : NetworkInterface × Except Exn α) : Prop where
  sound : out.1.Sound
  returned : ∃ a, out.2 = .ok a

theorem Sound.sendPayload (h : n.Sound) (eaddr : EthernetAddress) (payload : BufferList)
    (type : UInt16) : (n.sendPayload eaddr payload type).Sound :=
  ⟨h.own, h.pending⟩

theorem Sound.sendSerialized (h : n.Sound) (eaddr : EthernetAddress) {d : IPv4Datagram}
    (good : d.wellFormed = true) : Safe (n.sendSerialized eaddr d) := by
  rcases sendSerialized_cases n eaddr d with ⟨e, -, hbad⟩ | ⟨payload, -, -, heq⟩
  · rw [hbad] at good
    cases good
  · rw [heq]
    exact ⟨h.sendPayload _ _ _, (), rfl⟩

theorem Sound.sendArp (h : n.Sound) (eaddr : EthernetAddress) {msg : ARPMessage}
    (supported : msg.supported = true) : Safe (n.sendArp eaddr msg) := by
  obtain ⟨payload, hser⟩ := ARPMessage.serialize_supported supported
  unfold NetworkInterface.sendArp
  rw [hser]
  exact ⟨h.sendPayload _ _ _, (), rfl⟩

theorem Sound.broadCast (h : n.Sound) {addr : Address} {ip : UInt32}
    (inet : addr.ipv4Numeric = .ok ip) : Safe (n.broadCast addr) := by
  obtain ⟨own, hown⟩ := h.own
  rcases n.broadCast_cases inet with ⟨-, heq⟩ | ⟨-, ⟨e, hbad, -⟩ | ⟨own, payload, -, -, heq⟩⟩
  · rw [heq]
    exact ⟨h, (), rfl⟩
  · rw [hown] at hbad
    cases hbad
  · rw [heq]
    exact ⟨⟨h.own, h.pending⟩, (), rfl⟩

/-- A sound interface sends a well-formed datagram. -/
theorem Sound.sendDatagram (h : n.Sound) {d : IPv4Datagram} (good : d.wellFormed = true)
    {nextHop : Address} {ip : UInt32} (inet : nextHop.ipv4Numeric = .ok ip) :
    Safe (n.sendDatagram d nextHop) := by
  unfold NetworkInterface.sendDatagram
  rw [inet]
  dsimp only
  cases n.ipMap.find? ip with
  | some mapping => exact h.sendSerialized _ good
  | none =>
    have hkept : Sound { n with unknownDatagramMap := n.unknownDatagramMap.insert ip d } := by
      refine ⟨h.own, fun ip' d' hfind => ?_⟩
      by_cases hip : ip' = ip
      · rw [hip, SortedMap.find?_insert_self, Option.some.injEq] at hfind
        exact hfind ▸ good
      · rw [SortedMap.find?_insert_ne hip] at hfind
        exact h.pending ip' d' hfind
    exact hkept.broadCast inet

theorem Sound.learn (h : n.Sound) (ip : UInt32) (eaddr : EthernetAddress) :
    Safe (n.learn ip eaddr) := by
  unfold NetworkInterface.learn
  dsimp only
  generalize hlearned : NetworkInterface.mk _ _ _ _ _ _ _ = learned
  have hsound : learned.Sound := hlearned ▸ ⟨h.own, h.pending⟩
  cases hfind : n.unknownDatagramMap.find? ip with
  | none => exact ⟨hsound, (), rfl⟩
  | some d =>
    dsimp only
    have hsent := hsound.sendSerialized eaddr (h.pending ip d hfind)
    generalize learned.sendSerialized eaddr d = out at *
    obtain ⟨sent, result⟩ := out
    obtain ⟨hkept, a, rfl⟩ := hsent
    refine ⟨⟨hkept.own, fun ip' d' hfind' => ?_⟩, (), rfl⟩
    by_cases hip : ip' = ip
    · rw [hip] at hfind'
      cases SortedMap.find?_erase_self.symm.trans hfind'
    · exact hkept.pending ip' d' ((SortedMap.find?_erase_ne hip).symm.trans hfind')

theorem Sound.answer (h : n.Sound) (msg : ARPMessage) : Safe (n.answer msg) := by
  obtain ⟨own, hown⟩ := h.own
  unfold NetworkInterface.answer
  rw [hown]
  dsimp only
  split
  · exact h.sendArp _ rfl
  · exact ⟨h, (), rfl⟩

theorem Sound.receiveArp (h : n.Sound) (msg : ARPMessage) : Safe (n.receiveArp msg) := by
  unfold NetworkInterface.receiveArp
  have hlearn := h.learn msg.senderIpAddress msg.senderEthernetAddress
  generalize n.learn msg.senderIpAddress msg.senderEthernetAddress = out at *
  obtain ⟨learned, result⟩ := out
  obtain ⟨hsound, a, rfl⟩ := hlearn
  dsimp only
  split
  · exact Sound.learn hsound _ _
  · split
    · exact Sound.answer hsound _
    · exact ⟨hsound, (), rfl⟩

theorem Sound.tick (h : n.Sound) (ms : Nat) : (n.tick ms).Sound := ⟨h.own, h.pending⟩

/-- A sound interface takes a frame in one piece; a datagram it answers was parsed from the frame. -/
theorem Sound.recvFrame (h : n.Sound) {frame : EthernetFrame} {buffer : Buffer}
    (piece : frame.payload.toBuffer = .ok buffer) :
    (n.recvFrame frame).1.Sound ∧ ∃ received, (n.recvFrame frame).2 = .ok received ∧
      ∀ d ∈ received, frame.ForMe n.ethernetAddress ∧
        frame.header.type = EthernetHeader.TYPE_IPv4 ∧
        (IPv4Datagram.parse {} buffer).1 = .noError ∧ d = (IPv4Datagram.parse {} buffer).2 := by
  unfold NetworkInterface.recvFrame
  rw [piece]
  dsimp only
  split
  · exact ⟨h, none, rfl, nofun⟩
  next hdst =>
    split
    next htype =>
      refine ⟨h, _, rfl, fun d hd => ?_⟩
      split at hd
      next hacc =>
        refine ⟨?_, htype, hacc, (Option.some.inj hd).symm⟩
        rw [not_and_or, not_not, not_not] at hdst
        exact hdst
      next => cases hd
    next =>
      split
      · split
        · have hsafe := h.receiveArp (ARPMessage.parse {} buffer).2
          generalize n.receiveArp (ARPMessage.parse {} buffer).2 = out at *
          obtain ⟨received, result⟩ := out
          obtain ⟨hsound, a, rfl⟩ := hsafe
          exact ⟨hsound, none, rfl, nofun⟩
        · exact ⟨h, none, rfl, nofun⟩
      · exact ⟨h, none, rfl, nofun⟩

end NetworkInterface

/-! ## Queued datagrams -/

/-- A datagram that routing either drops or can serialize. -/
def IPv4Datagram.Harmless (d : IPv4Datagram) : Prop := d.header.ttl.toNat ≤ 1 ∨ d.wellFormed = true

/-- Nothing the interface holds or has queued makes a call throw. -/
structure AsyncNetworkInterface.Sound (a : AsyncNetworkInterface) : Prop where
  net : a.net.Sound
  queued : ∀ d ∈ a.datagramsOut, d.Harmless

/-- What is accepted from a benign packet is harmless. -/
theorem IPv4Datagram.harmless_parse {buffer : Buffer}
    (accepted : (IPv4Datagram.parse {} buffer).1 = .noError)
    (benign : wireTtl buffer.str ≤ 1 ∨ wireVer buffer.str = 4 ∧ 5 ≤ wireHlen buffer.str) :
    (IPv4Datagram.parse {} buffer).2.Harmless := by
  obtain ⟨hsize, hver, hhlen, httl⟩ := IPv4Datagram.parse_accepted accepted
  rcases benign with hdead | ⟨hfour, hfive⟩
  · exact .inl (httl ▸ hdead)
  · refine .inr ((IPv4Datagram.wellFormed_iff _).mpr ⟨hsize, ?_, hhlen ▸ hfive⟩)
    exact UInt8.toNat_inj.mp (hver.trans hfour)

namespace AsyncNetworkInterface

theorem sound_new (ethernetAddress : EthernetAddress) (ip : UInt32) (port : UInt16) :
    Sound ⟨.new ethernetAddress (.inet ip port), []⟩ :=
  ⟨⟨⟨ip, rfl⟩, nofun⟩, nofun⟩

theorem Sound.recvFrame {a : AsyncNetworkInterface} (h : a.Sound) {frame : EthernetFrame}
    (piece : frame.Contiguous) (benign : frame.Benign a.net.ethernetAddress) :
    (a.recvFrame frame).1.Sound ∧ (a.recvFrame frame).2 = .ok () := by
  unfold EthernetFrame.Contiguous at piece
  cases hbuffer : frame.payload.toBuffer with
  | error e =>
    rw [hbuffer] at piece
    cases piece
  | ok buffer =>
    obtain ⟨hsound, received, hok, hparsed⟩ := h.net.recvFrame hbuffer
    unfold AsyncNetworkInterface.recvFrame
    generalize a.net.recvFrame frame = out at *
    obtain ⟨net, result⟩ := out
    cases hok
    refine ⟨⟨hsound, fun d hd => ?_⟩, rfl⟩
    rcases List.mem_append.mp hd with hold | hnew
    · exact h.queued d hold
    · obtain ⟨hdst, htype, haccepted, rfl⟩ := hparsed d (Option.mem_toList.mp hnew)
      have hpiece : buffer ∈ frame.payload.toBuffer.toOption := by
        rw [hbuffer]
        rfl
      exact IPv4Datagram.harmless_parse haccepted (benign hdst htype buffer hpiece haccepted)

end AsyncNetworkInterface

/-! ## The router -/

/-- An address of the IPv4 family. -/
def Address.IsInet (addr : Address) : Prop := ∃ ip, addr.ipv4Numeric = .ok ip

namespace Router

variable {r : Router}

/-- The queue of an interface; there is none where there is no interface. -/
def queue (r : Router) (i : Nat) : List IPv4Datagram :=
  (r.interfaces[i]?.map AsyncNetworkInterface.datagramsOut).getD []

/-- Nothing the router holds makes a call throw. -/
structure Sound (r : Router) : Prop where
  some_interface : 0 < r.interfaces.length
  interfaces : ∀ a ∈ r.interfaces, a.Sound
  routes : ∀ item ∈ r.mapVec, item.interfaceNum < r.interfaces.length
  hops : ∀ item ∈ r.mapVec, ∀ hop ∈ item.nextHop, hop.IsInet

/-- Replacing an interface by a sound one keeps the router sound. -/
theorem Sound.set (h : r.Sound) (i : Nat) {a : AsyncNetworkInterface} (ha : a.Sound) :
    Sound { r with interfaces := r.interfaces.set i a } := by
  refine ⟨?_, fun b hb => ?_, fun item hitem => ?_, h.hops⟩
  · rw [List.length_set]
    exact h.some_interface
  · rcases List.mem_or_eq_of_mem_set hb with hold | rfl
    · exact h.interfaces b hold
    · exact ha
  · rw [List.length_set]
    exact h.routes item hitem

/-- The loop's variables have their initial values, or the interface and next hop of a route. -/
def Names (items : List MapItem) (s : Selection) : Prop :=
  s = Selection.initial ∨
    ∃ item ∈ items, s.matchedInterfaceNum = item.interfaceNum ∧ s.nextHop = item.nextHop

theorem names_select (r : Router) (destIp : UInt32) : Names r.mapVec (r.select destIp) := by
  refine List.foldlRecOn (motive := Names r.mapVec) r.mapVec _ (.inl rfl) fun s hs item hitem => ?_
  unfold Selection.turn
  split
  · exact .inr ⟨item, hitem, rfl, rfl⟩
  · exact hs

/-- The selection names an interface that is there and a next hop of the IPv4 family. -/
theorem Sound.select (h : r.Sound) (destIp : UInt32) :
    (r.select destIp).matchedInterfaceNum < r.interfaces.length ∧
      ((r.select destIp).nextHop.getD (Address.fromIpv4Numeric destIp)).IsInet := by
  have hdirect : (Address.fromIpv4Numeric destIp).IsInet := ⟨destIp, rfl⟩
  rcases r.names_select destIp with hinitial | ⟨item, hitem, hnum, hhop⟩
  · rw [hinitial]
    exact ⟨h.some_interface, hdirect⟩
  · rw [hnum, hhop]
    refine ⟨h.routes item hitem, ?_⟩
    cases hnext : item.nextHop with
    | none => exact hdirect
    | some hop => exact h.hops item hitem hop hnext

/-- The call a sound router makes for a harmless datagram is one that returns. -/
theorem Sound.handOff (h : r.Sound) {d d' : IPv4Datagram} (harmless : d.Harmless) {i : Nat}
    {nextHop : Address} (call : r.handOff d = some (i, d', nextHop)) :
    i < r.interfaces.length ∧ d'.wellFormed = true ∧ nextHop.IsInet := by
  obtain ⟨hthere, hinet⟩ := h.select d.header.dst
  unfold Router.handOff at call
  split at call
  · cases call
  next hlive =>
    cases call
    refine ⟨hthere, ?_, hinet⟩
    rcases harmless with hdead | hgood
    · have hfew : d.header.ttl.toNat = 0 ∨ d.header.ttl.toNat = 1 := by omega
      exact absurd (hfew.imp UInt8.toNat_inj.mp UInt8.toNat_inj.mp) hlive
    -- serializing does not look at the time to live
    · exact (IPv4Datagram.wellFormed_iff _).mpr ((IPv4Datagram.wellFormed_iff d).mp hgood)

theorem queue_set {i : Nat} {a : AsyncNetworkInterface} (there : i < r.interfaces.length) (j : Nat) :
    Router.queue { r with interfaces := r.interfaces.set i a } j =
      if i = j then a.datagramsOut else r.queue j := by
  unfold queue
  rw [List.getElem?_set, if_pos there]
  split <;> rfl

/-- The call returned, and left a sound router with as many interfaces. -/
structure Safe (r : Router) (out : Router × Except Exn Unit) : Prop where
  sound : out.1.Sound
  count : out.1.interfaces.length = r.interfaces.length
  returned : out.2 = .ok ()

/-- A harmless datagram is dropped or handed over, and the queues stay as they were. -/
theorem Sound.routeOneDatagram (h : r.Sound) {d : IPv4Datagram} (harmless : d.Harmless) :
    Safe r ((r.routeOneDatagram d).1, (r.routeOneDatagram d).2.2) ∧
      ∀ j, (r.routeOneDatagram d).1.queue j = r.queue j := by
  unfold Router.routeOneDatagram
  cases hcall : r.handOff d with
  | none => exact ⟨⟨h, rfl, rfl⟩, fun _ => rfl⟩
  | some call =>
    obtain ⟨i, d', nextHop⟩ := call
    obtain ⟨hthere, hgood, ip, hinet⟩ := h.handOff harmless hcall
    have hget := List.getElem?_eq_getElem hthere
    have ha := h.interfaces _ (List.getElem_mem hthere)
    dsimp only
    rw [hget]
    dsimp only
    generalize r.interfaces[i] = a at *
    have hsafe := ha.net.sendDatagram hgood hinet
    generalize a.net.sendDatagram d' nextHop = out at *
    obtain ⟨net, result⟩ := out
    obtain ⟨hnet, u, rfl⟩ := hsafe
    refine ⟨⟨h.set i ⟨hnet, ha.queued⟩, List.length_set, rfl⟩, fun j => ?_⟩
    rw [queue_set hthere]
    split
    next heq =>
      unfold queue
      rw [← heq, hget]
      rfl
    next => rfl

theorem queue_setQueue {i : Nat} (there : i < r.interfaces.length) (q : List IPv4Datagram) (j : Nat) :
    (r.setQueue i q).queue j = if i = j then q else r.queue j := by
  unfold queue setQueue
  rw [List.getElem?_modify]
  split
  next heq =>
    rw [← heq, List.getElem?_eq_getElem there]
    rfl
  next => rw [Option.map_eq_map, Option.map_id_fun', id]

theorem Sound.setQueue (h : r.Sound) (i : Nat) {q : List IPv4Datagram} (hq : ∀ d ∈ q, d.Harmless) :
    (r.setQueue i q).Sound := by
  unfold Router.setQueue
  refine ⟨?_, fun a ha => ?_, fun item hitem => ?_, h.hops⟩
  · rw [List.length_modify]
    exact h.some_interface
  · obtain ⟨j, hj⟩ := List.mem_iff_getElem?.mp ha
    rw [List.getElem?_modify, Option.map_eq_map, Option.map_eq_some_iff] at hj
    obtain ⟨b, hb, rfl⟩ := hj
    have hsound := h.interfaces b (List.mem_of_getElem? hb)
    split
    · exact ⟨hsound.net, hq⟩
    · exact hsound
  · rw [List.length_modify]
    exact h.routes item hitem

/-- The loop over one queue empties it, and leaves the others. -/
theorem Sound.routeQueue (h : r.Sound) {i : Nat} (there : i < r.interfaces.length)
    {q : List IPv4Datagram} (hq : ∀ d ∈ q, d.Harmless) (front : r.queue i = q) :
    Safe r (routeQueue i q r) ∧
      ∀ j, (routeQueue i q r).1.queue j = if i = j then [] else r.queue j := by
  induction q generalizing r with
  | nil =>
    refine ⟨⟨h, rfl, rfl⟩, fun j => ?_⟩
    split
    next heq => exact heq ▸ front
    next => rfl
  | cons d rest ih =>
    obtain ⟨hsafe, hqueues⟩ := h.routeOneDatagram (hq d List.mem_cons_self)
    rw [Router.routeQueue]
    generalize r.routeOneDatagram d = out at *
    obtain ⟨r', d', result⟩ := out
    obtain ⟨hsound, hcount, hok⟩ := hsafe
    dsimp only at hsound hcount hok hqueues
    subst hok
    dsimp only
    have hrest : ∀ d ∈ rest, d.Harmless := fun d hd => hq d (List.mem_cons_of_mem _ hd)
    have hpopped := queue_setQueue (hcount ▸ there) rest
    have hlength : (r'.setQueue i rest).interfaces.length = r'.interfaces.length :=
      List.length_modify _ _ _
    obtain ⟨⟨hsound', hcount', hok'⟩, hqueues'⟩ := ih (hsound.setQueue i hrest)
      (by rw [hlength, hcount]; exact there) hrest ((hpopped i).trans (if_pos rfl))
    refine ⟨⟨hsound', by rw [hcount', hlength, hcount], hok'⟩, fun j => ?_⟩
    rw [hqueues', hpopped, hqueues]
    split <;> rfl

theorem routeFrom_cons {i : Nat} {is : List Nat} {r' : Router}
    (h : routeQueue i (r.queue i) r = (r', .ok ())) : routeFrom (i :: is) r = routeFrom is r' := by
  unfold queue at h
  rw [routeFrom, h]

/-- The loop over interfaces empties their queues, and leaves empty what was empty. -/
theorem Sound.routeFrom (h : r.Sound) {is : List Nat} (there : ∀ i ∈ is, i < r.interfaces.length) :
    Safe r (routeFrom is r) ∧ ∀ j, j ∈ is ∨ r.queue j = [] → (routeFrom is r).1.queue j = [] := by
  induction is generalizing r with
  | nil => exact ⟨⟨h, rfl, rfl⟩, fun j hj => hj.resolve_left List.not_mem_nil⟩
  | cons i is ih =>
    have hi := there i List.mem_cons_self
    have hqueued : ∀ d ∈ r.queue i, d.Harmless := by
      have hget := List.getElem?_eq_getElem hi
      unfold queue
      rw [hget]
      exact (h.interfaces _ (List.getElem_mem hi)).queued
    obtain ⟨hsafe, hqueues⟩ := h.routeQueue hi hqueued rfl
    cases hout : Router.routeQueue i (r.queue i) r with
    | mk r' result =>
      rw [hout] at hsafe hqueues
      obtain ⟨hsound, hcount, hok⟩ := hsafe
      dsimp only at hsound hcount hok hqueues
      subst hok
      rw [routeFrom_cons hout]
      obtain ⟨⟨hsound', hcount', hok'⟩, hempty⟩ := ih hsound fun k hk =>
        hcount ▸ there k (List.mem_cons_of_mem _ hk)
      refine ⟨⟨hsound', hcount'.trans hcount, hok'⟩, fun j hj => hempty j ?_⟩
      rw [hqueues]
      by_cases heq : i = j
      · exact .inr (if_pos heq)
      · rw [if_neg heq]
        exact hj.imp_left fun hmem => (List.mem_cons.mp hmem).resolve_left (Ne.symm heq)

/-- **Routing a sound router** returns and empties every queue. -/
theorem Sound.route (h : r.Sound) :
    Safe r r.route ∧ ∀ a ∈ r.route.1.interfaces, a.datagramsOut = [] := by
  have hrange : ∀ i ∈ List.range r.interfaces.length, i < r.interfaces.length := fun i hi =>
    List.mem_range.mp hi
  obtain ⟨hsafe, hempty⟩ := h.routeFrom hrange
  refine ⟨hsafe, fun a ha => ?_⟩
  obtain ⟨j, hj⟩ := List.mem_iff_getElem?.mp ha
  have hlt : j < r.interfaces.length := by
    obtain ⟨hlt, -⟩ := List.getElem?_eq_some_iff.mp hj
    exact hsafe.count ▸ hlt
  have hqueue := hempty j (.inl (List.mem_range.mpr hlt))
  change r.route.1.queue j = [] at hqueue
  unfold queue at hqueue
  rw [hj] at hqueue
  exact hqueue

/-! ## Runs -/

/-- A call from outside. -/
inductive Op
  | recvFrame (i : Nat) (frame : EthernetFrame)
  | tick (i : Nat) (msSinceLastTick : Nat)
  | route

/-- What a call does. -/
def call (r : Router) : Op → Router × Except Exn Unit
  | .recvFrame i frame =>
    match r.interfaces[i]? with
    | none => (r, .ok ())
    | some a =>
      ({ r with interfaces := r.interfaces.set i (a.recvFrame frame).1 }, (a.recvFrame frame).2)
  | .tick i ms =>
    match r.interfaces[i]? with
    | none => (r, .ok ())
    | some a => ({ r with interfaces := r.interfaces.set i { a with net := a.net.tick ms } }, .ok ())
  | .route => r.route

/-- The state after a call, whether it returned or threw. -/
def step (r : Router) (op : Op) : Router := (r.call op).1

/-- The calls the environment makes: on interfaces that are there, with frames in one piece. -/
def Permitted (r : Router) : Op → Prop
  | .recvFrame i frame => i < r.interfaces.length ∧ frame.Contiguous
  | .tick i _ => i < r.interfaces.length
  | .route => True

/-- A frame that arrives is benign. -/
def Benign (r : Router) : Op → Prop
  | .recvFrame i frame => ∀ a ∈ r.interfaces[i]?, frame.Benign a.net.ethernetAddress
  | _ => True

instance (r : Router) : ∀ op, Decidable (r.Permitted op)
  | .recvFrame _ _ => inferInstanceAs (Decidable (_ ∧ _))
  | .tick _ _ => inferInstanceAs (Decidable (_ < _))
  | .route => inferInstanceAs (Decidable True)

instance (r : Router) : ∀ op, Decidable (r.Benign op)
  | .recvFrame _ _ => inferInstanceAs (Decidable (∀ a ∈ _, _))
  | .tick _ _ => inferInstanceAs (Decidable True)
  | .route => inferInstanceAs (Decidable True)

/-- **One call** on a sound router returns and leaves it sound. -/
theorem Sound.call (h : r.Sound) {op : Op} (permitted : r.Permitted op) (benign : r.Benign op) :
    (r.call op).1.Sound ∧ (r.call op).2 = .ok () := by
  cases op with
  | recvFrame i frame =>
    obtain ⟨hthere, hpiece⟩ := permitted
    have hget := List.getElem?_eq_getElem hthere
    obtain ⟨hsound, hok⟩ :=
      (h.interfaces _ (List.getElem_mem hthere)).recvFrame hpiece (benign _ hget)
    unfold Router.call
    dsimp only
    rw [hget]
    exact ⟨h.set i hsound, hok⟩
  | tick i ms =>
    have hget := List.getElem?_eq_getElem (show i < r.interfaces.length from permitted)
    have ha := h.interfaces _ (List.mem_of_getElem? hget)
    unfold Router.call
    dsimp only
    rw [hget]
    exact ⟨h.set i ⟨ha.net.tick ms, ha.queued⟩, rfl⟩
  | route => exact ⟨h.route.1.sound, h.route.1.returned⟩

/-- **No call throws, and routing empties the queues**, in every run from a sound router whose frames
are benign. -/
theorem never_wedged {start : Router} (sound : start.Sound)
    (run : Runs.Reach step (fun r op => r.Permitted op ∧ r.Benign op) start r) {op : Op}
    (permitted : r.Permitted op) (benign : r.Benign op) :
    (r.call op).2 = .ok () ∧
      (op = .route → ∀ a ∈ (r.call op).1.interfaces, a.datagramsOut = []) := by
  have hsound : r.Sound :=
    run.invariant Sound sound fun r op hr hop => (hr.call hop.1 hop.2).1
  refine ⟨(hsound.call permitted benign).2, ?_⟩
  rintro rfl
  exact hsound.route.2

/-- One interface with address 7, and no routes. -/
def onePort : Router := ⟨[⟨.new EthernetAddress.zero (.inet 7 0), []⟩], []⟩

theorem sound_onePort : onePort.Sound := by
  refine ⟨by decide, fun a ha => ?_, nofun, nofun⟩
  rw [List.mem_singleton.mp ha]
  exact AsyncNetworkInterface.sound_new _ _ _

/-- A frame to everyone with a datagram for host 9: twenty bytes, the first as given. -/
def packetFrame (firstByte : UInt8) : EthernetFrame where
  header := { dst := ETHERNET_BROADCAST, type := EthernetHeader.TYPE_IPv4 }
  payload := BufferList.ofString
    ([firstByte, 0, 0, 20] ++ [0, 0, 0, 0] ++ [64, 6, 0, 0] ++ [0, 0, 0, 0] ++ [0, 0, 0, 9])

/-- Host 9 is learned, a datagram for it comes in, and routing sends it on. -/
theorem never_wedged_two :
    let r := [.recvFrame 0 Resolution.replyFrame, .recvFrame 0 (packetFrame 0x45)].foldl step onePort
    (r.queue 0).length = 1 ∧ (r.call .route).2 = .ok () ∧
      ∀ a ∈ (r.call .route).1.interfaces, a.datagramsOut = [] := by
  intro r
  have hrun : Runs.Reach step (fun r op => r.Permitted op ∧ r.Benign op) onePort r :=
    Runs.reach_foldl .start (by decide +kernel)
  obtain ⟨hok, hempty⟩ := never_wedged sound_onePort hrun (show r.Permitted .route from trivial) trivial
  exact ⟨by decide +kernel, hok, hempty rfl⟩

/-- **A datagram of version 5 wedges the router.** It is accepted and queued; `route` throws when it
serializes it, leaves it at the front one hop older, and throws again on the next call. -/
theorem version_five_wedges :
    let r := [.recvFrame 0 Resolution.replyFrame, .recvFrame 0 (packetFrame 0x55)].foldl step onePort
    onePort.Sound ∧ Runs.Reach step Permitted onePort r ∧
      (r.call .route).2 = .error (.runtimeError "wrong IP version") ∧
      (r.step .route).queue 0 ≠ [] ∧
      ((r.step .route).call .route).2 = .error (.runtimeError "wrong IP version") := by
  intro r
  refine ⟨sound_onePort, Runs.reach_foldl .start (by decide +kernel), ?_, ?_, ?_⟩
  all_goals decide +kernel

end Router

end Sponge
