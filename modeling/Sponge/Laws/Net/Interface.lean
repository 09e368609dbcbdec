import Mathlib.Data.List.Forall2
import Sponge.Lib.Run
import Sponge.Net.Interface

/-!
# Laws.Net.Interface — what becomes of a datagram whose next hop is unknown

A datagram for a known hop is sent at once; one for an unknown hop waits until a mapping is learned.
A `Resolution` is an interface with two records that the calls alone make. `given` has the well-formed
datagrams, each with the hop it was given for. `sent` has what has to be sent, call by call: a datagram
at once when its hop is known, and in the call that learns a hop whatever is owed to that hop.
`Tracked` says that the frames queued are those of `sent`, that for every hop the datagrams given are
those sent, followed by the one that waits, and that nothing waits for a hop whose mapping is known.

There is one place to wait for each hop. A second datagram for an unresolved hop takes the place of
the first, which is lost; `Vacant` excludes that.
-/

namespace Sponge

/-- A datagram that can be serialized. -/
def IPv4Datagram.wellFormed (d : IPv4Datagram) : Bool := d.serialize.isOk

theorem IPv4Header.serialize_isOk (h : IPv4Header) :
    h.serialize.isOk = true ↔ h.ver = 4 ∧ 5 ≤ h.hlen.toNat := by
  unfold serialize LENGTH
  split
  next hver => exact ⟨nofun, fun hgood => absurd hgood.1 hver⟩
  next hver =>
    split
    next hshort => exact ⟨nofun, fun hgood => by omega⟩
    next hlong => exact ⟨fun _ => ⟨not_not.mp hver, by omega⟩, fun _ => rfl⟩

/-- What `serialize` asks of a datagram: a payload of the stated length, version 4, and a header
length that covers the fields. -/
theorem IPv4Datagram.wellFormed_iff (d : IPv4Datagram) :
    d.wellFormed = true ↔
      d.payload.size = d.header.payloadLength.toNat ∧ d.header.ver = 4 ∧ 5 ≤ d.header.hlen.toNat := by
  unfold wellFormed serialize
  split
  next hsize => exact ⟨nofun, fun hgood => absurd hgood.1 hsize⟩
  next hsize =>
    have hzero := IPv4Header.serialize_isOk { d.header with cksum := 0 }
    rw [← not_not.mp hsize]
    cases hser : { d.header with cksum := 0 }.serialize with
    | error e =>
      rw [hser] at hzero
      exact ⟨nofun, fun hgood => nomatch hzero.mpr hgood.2⟩
    | ok headerZeroChecksum =>
      rw [hser] at hzero
      have hfields := hzero.mp rfl
      refine ⟨fun _ => ⟨rfl, hfields⟩, fun _ => ?_⟩
      show (Except.bind { d.header with cksum := _ }.serialize _).isOk = true
      generalize hcheck : ((InternetChecksum.new 0).add headerZeroChecksum).value = cksum
      have hfinal := (IPv4Header.serialize_isOk { d.header with cksum }).mpr hfields
      cases hout : { d.header with cksum }.serialize with
      | error e =>
        rw [hout] at hfinal
        cases hfinal
      | ok headerOut => rfl

theorem ARPMessage.serialize_supported {msg : ARPMessage} (h : msg.supported = true) :
    ∃ payload, msg.serialize = .ok payload := by
  unfold serialize
  rw [if_neg (by rw [h]; exact Bool.noConfusion)]
  exact ⟨_, rfl⟩

/-- The datagrams recorded for one hop, in order. -/
def forHop (ip : UInt32) (record : List (UInt32 × IPv4Datagram)) : List IPv4Datagram :=
  (record.filter fun p => p.1 = ip).map Prod.snd

section ForHop

variable (ip : UInt32) (record record' : List (UInt32 × IPv4Datagram)) (d : IPv4Datagram)

theorem forHop_append : forHop ip (record ++ record') = forHop ip record ++ forHop ip record' := by
  simp only [forHop, List.filter_append, List.map_append]

theorem forHop_self : forHop ip [(ip, d)] = [d] := by
  simp only [forHop, decide_true, List.filter_cons_of_pos, List.filter_nil, List.map_cons,
    List.map_nil]

theorem forHop_other {ip ip' : UInt32} (h : ip' ≠ ip) : forHop ip [(ip', d)] = [] := by
  simp only [forHop, h, decide_false, Bool.false_eq_true, not_false_eq_true, List.filter_cons_of_neg,
    List.filter_nil, List.map_nil]

end ForHop

/-- The datagrams given for a hop that have not been sent. -/
def owed (given sent : List (UInt32 × IPv4Datagram)) (ip : UInt32) : List IPv4Datagram :=
  (forHop ip given).drop (forHop ip sent).length

/-- The record of what was sent, once what was owed to a hop has been sent to it. -/
def settle (given sent : List (UInt32 × IPv4Datagram)) (ip : UInt32) : List (UInt32 × IPv4Datagram) :=
  sent ++ (owed given sent ip).map (ip, ·)

/-- What a message teaches: where its sender is, and in a reply where its target is. -/
def ARPMessage.teaches (msg : ARPMessage) : List (UInt32 × EthernetAddress) :=
  (msg.senderIpAddress, msg.senderEthernetAddress) ::
    if msg.opcode = 2 then [(msg.targetIpAddress, msg.targetEthernetAddress)] else []

namespace NetworkInterface

/-- The frames that carry datagrams, in the order they were queued. -/
def ipv4Frames (n : NetworkInterface) : List EthernetFrame :=
  n.framesOut.filter fun f => f.header.type = EthernetHeader.TYPE_IPv4

/-- The well-formed datagram that waits for a hop, if there is one. -/
def waiting (n : NetworkInterface) (ip : UInt32) : List IPv4Datagram :=
  (n.unknownDatagramMap.find? ip).toList.filter IPv4Datagram.wellFormed

/-- The ARP message of a frame that the interface accepts. -/
def acceptedArp (n : NetworkInterface) (frame : EthernetFrame) : Option ARPMessage :=
  if frame.header.dst = n.ethernetAddress ∨ frame.header.dst = ETHERNET_BROADCAST then
    if frame.header.type = EthernetHeader.TYPE_ARP then
      match frame.payload.toBuffer with
      | .error _ => none
      | .ok buffer =>
        let parsed := ARPMessage.parse {} buffer
        if parsed.1 = .noError then some parsed.2 else none
    else none
  else none

/-- A frame changes the interface through its ARP message only. -/
theorem recvFrame_fst (n : NetworkInterface) (frame : EthernetFrame) :
    (n.recvFrame frame).1 = match n.acceptedArp frame with
      | some msg => (n.receiveArp msg).1
      | none => n := by
  unfold recvFrame acceptedArp
  by_cases hdst : frame.header.dst = n.ethernetAddress ∨ frame.header.dst = ETHERNET_BROADCAST
  · rw [if_neg (by tauto), if_pos hdst]
    by_cases harp : frame.header.type = EthernetHeader.TYPE_ARP
    · have hip : frame.header.type ≠ EthernetHeader.TYPE_IPv4 := by
        rw [harp]
        decide
      rw [if_neg hip, if_pos harp, if_pos harp]
      cases frame.payload.toBuffer with
      | error e => rfl
      | ok buffer =>
        dsimp only
        split
        · rfl
        · rfl
    · rw [if_neg harp, if_neg harp]
      split
      · cases frame.payload.toBuffer with
        | error e => rfl
        | ok buffer => rfl
      · rfl
  · rw [if_pos (by tauto), if_neg hdst]

/-- The hop's Ethernet address is known. -/
def mapped (n : NetworkInterface) (ip : UInt32) : Bool := (n.ipMap.find? ip).isSome

/-- The hops that a frame teaches and that are in the map after it. When what waited for the sender of a
reply cannot be serialized, `recv_frame` throws before it comes to the target. -/
def hopsLearned (n : NetworkInterface) (frame : EthernetFrame) : List UInt32 :=
  (((n.acceptedArp frame).elim [] ARPMessage.teaches).map Prod.fst).filter (n.recvFrame frame).1.mapped

variable {n n' : NetworkInterface} {given sent : List (UInt32 × IPv4Datagram)}

/-- What matters for datagrams is as it was. -/
structure Quiet (n n' : NetworkInterface) : Prop where
  ipMap : n'.ipMap = n.ipMap
  unknown : n'.unknownDatagramMap = n.unknownDatagramMap
  frames : n'.ipv4Frames = n.ipv4Frames

/-- The books of the datagrams. -/
structure Tracked (given sent : List (UInt32 × IPv4Datagram)) (n : NetworkInterface) : Prop where
  carried : List.Forall₂ (fun p f => p.2.serialize = .ok f.payload) sent n.ipv4Frames
  books : ∀ ip, forHop ip given = forHop ip sent ++ n.waiting ip
  resolved : ∀ ip, n.ipMap.find? ip ≠ none → n.waiting ip = []

theorem tracked_new (ethernetAddress : EthernetAddress) (ipAddress : Address) :
    Tracked [] [] (new ethernetAddress ipAddress) :=
  ⟨List.Forall₂.nil, fun _ => rfl, fun _ h => absurd rfl h⟩

/-- The books after a call that queued the frames `frames` for the datagrams `new`. -/
theorem Tracked.update (h : Tracked given sent n) {given' : List (UInt32 × IPv4Datagram)}
    (new : List (UInt32 × IPv4Datagram)) (frames : List EthernetFrame)
    (queued : n'.ipv4Frames = n.ipv4Frames ++ frames)
    (carry : List.Forall₂ (fun p f => p.2.serialize = .ok f.payload) new frames)
    (owed : ∀ ip before, forHop ip given = before ++ n.waiting ip →
      forHop ip given' = before ++ forHop ip new ++ n'.waiting ip)
    (resolved : ∀ ip, n'.ipMap.find? ip ≠ none → n'.waiting ip = []) :
    Tracked given' (sent ++ new) n' := by
  refine ⟨?_, fun ip => ?_, resolved⟩
  · rw [queued]
    exact List.rel_append h.carried carry
  · rw [forHop_append]
    exact owed ip _ (h.books ip)

/-- The books after a call that queued no datagram. -/
theorem Tracked.unsent (h : Tracked given sent n) {given' : List (UInt32 × IPv4Datagram)}
    (frames : n'.ipv4Frames = n.ipv4Frames)
    (owed : ∀ ip before, forHop ip given = before ++ n.waiting ip →
      forHop ip given' = before ++ n'.waiting ip)
    (resolved : ∀ ip, n'.ipMap.find? ip ≠ none → n'.waiting ip = []) :
    Tracked given' sent n' :=
  ⟨frames ▸ h.carried, fun ip => owed ip _ (h.books ip), resolved⟩

/-- What is owed to a hop is what waits for it. -/
theorem Tracked.owed_eq (h : Tracked given sent n) (ip : UInt32) : owed given sent ip = n.waiting ip := by
  rw [owed, h.books ip, List.drop_left]

theorem Tracked.settle_eq (h : Tracked given sent n) (ip : UInt32) :
    settle given sent ip = sent ++ (n.waiting ip).map (ip, ·) := by
  rw [settle, h.owed_eq]

/-- Nothing is owed to a hop that is resolved. -/
theorem Tracked.settle_resolved (h : Tracked given sent n) {ip : UInt32}
    (known : n.mapped ip = true) : settle given sent ip = sent := by
  rw [h.settle_eq, h.resolved ip (Option.isSome_iff_ne_none.mp known)]
  exact List.append_nil sent

theorem waiting_congr (same : n'.unknownDatagramMap = n.unknownDatagramMap) (ip : UInt32) :
    n'.waiting ip = n.waiting ip := by
  rw [waiting, waiting, same]

theorem Tracked.quiet (h : Tracked given sent n) (quiet : Quiet n n') : Tracked given sent n' := by
  have hwaiting := waiting_congr quiet.unknown
  refine h.unsent quiet.frames (fun ip before howed => ?_) fun ip hmap => ?_
  · rw [hwaiting, howed]
  · rw [hwaiting]
    exact h.resolved ip (quiet.ipMap ▸ hmap)

/-! ## ARP traffic is quiet -/

theorem ipv4Frames_sendPayload (n : NetworkInterface) (eaddr : EthernetAddress)
    (payload : BufferList) (type : UInt16) :
    (n.sendPayload eaddr payload type).ipv4Frames = n.ipv4Frames ++
      if type = EthernetHeader.TYPE_IPv4 then
        [{ header := { dst := eaddr, src := n.ethernetAddress, type }, payload }] else [] := by
  simp only [sendPayload, ipv4Frames, List.filter_append, List.filter_cons, List.filter_nil,
    decide_eq_true_eq]

theorem sendArp_quiet (n : NetworkInterface) (eaddr : EthernetAddress) (msg : ARPMessage) :
    Quiet n (n.sendArp eaddr msg).1 := by
  unfold sendArp
  cases msg.serialize with
  | error e => exact ⟨rfl, rfl, rfl⟩
  | ok payload =>
    refine ⟨rfl, rfl, ?_⟩
    rw [ipv4Frames_sendPayload, if_neg (by decide), List.append_nil]

/-- The message that asks for an address. -/
def request (n : NetworkInterface) (own ip : UInt32) : ARPMessage where
  opcode := 1
  senderEthernetAddress := n.ethernetAddress
  senderIpAddress := own
  targetIpAddress := ip

/-- The interface once it has broadcast a message and noted when. -/
def asked (n : NetworkInterface) (ip : UInt32) (payload : Bytes) : NetworkInterface :=
  { n.sendPayload ETHERNET_BROADCAST (BufferList.ofString payload) EthernetHeader.TYPE_ARP with
    ipArpTime := n.ipArpTime.insert ip (Word64.add n.crtTime DST_IP_EXPIRE_TIME_MS) }

/-- **What `broad_cast` does**: nothing for an address asked for lately; nothing when the interface has no
IPv4 address to ask from; else it broadcasts a request and notes the time. -/
theorem broadCast_cases (n : NetworkInterface) {addr : Address} {ip : UInt32}
    (inet : addr.ipv4Numeric = .ok ip) :
    (n.ipArpTime.contains ip = true ∧ n.broadCast addr = (n, .ok ())) ∨
      n.ipArpTime.contains ip = false ∧
        ((∃ e, n.ipAddress.ipv4Numeric = .error e ∧ n.broadCast addr = (n, .error e)) ∨
          ∃ own payload, n.ipAddress.ipv4Numeric = .ok own ∧ (n.request own ip).serialize = .ok payload ∧
            n.broadCast addr = (n.asked ip payload, .ok ())) := by
  unfold broadCast
  rw [inet]
  dsimp only
  cases hlately : n.ipArpTime.contains ip with
  | true => exact .inl ⟨rfl, rfl⟩
  | false =>
    refine .inr ⟨rfl, ?_⟩
    rw [if_neg Bool.false_ne_true]
    cases n.ipAddress.ipv4Numeric with
    | error e => exact .inl ⟨e, rfl, rfl⟩
    | ok own =>
      have hsupported : (n.request own ip).supported = true := rfl
      obtain ⟨payload, hser⟩ := ARPMessage.serialize_supported hsupported
      have hsent : n.sendArp ETHERNET_BROADCAST (n.request own ip) = (n.sendPayload ETHERNET_BROADCAST
          (BufferList.ofString payload) EthernetHeader.TYPE_ARP, .ok ()) := by
        rw [sendArp, hser]
      refine .inr ⟨own, payload, rfl, hser, ?_⟩
      rw [request] at hsent
      dsimp only
      rw [hsent]
      rfl

theorem broadCast_quiet (n : NetworkInterface) (addr : Address) : Quiet n (n.broadCast addr).1 := by
  cases hinet : addr.ipv4Numeric with
  | error e =>
    rw [broadCast, hinet]
    exact ⟨rfl, rfl, rfl⟩
  | ok ip =>
    rcases n.broadCast_cases hinet with ⟨-, heq⟩ | ⟨-, ⟨e, -, heq⟩ | ⟨own, payload, -, -, heq⟩⟩
    · rw [heq]
      exact ⟨rfl, rfl, rfl⟩
    · rw [heq]
      exact ⟨rfl, rfl, rfl⟩
    · rw [heq]
      refine ⟨rfl, rfl, (ipv4Frames_sendPayload _ _ _ _).trans ?_⟩
      rw [if_neg (by decide), List.append_nil]

theorem answer_quiet (n : NetworkInterface) (msg : ARPMessage) : Quiet n (n.answer msg).1 := by
  unfold answer
  cases n.ipAddress.ipv4Numeric with
  | error e => exact ⟨rfl, rfl, rfl⟩
  | ok own =>
    dsimp only
    split
    · exact sendArp_quiet n _ _
    · exact ⟨rfl, rfl, rfl⟩

/-! ## Sending and learning -/

theorem waiting_of_none {ip : UInt32} (h : n.unknownDatagramMap.find? ip = none) :
    n.waiting ip = [] := by
  rw [waiting, h]
  rfl

theorem waiting_of_some {ip : UInt32} {d : IPv4Datagram}
    (h : n.unknownDatagramMap.find? ip = some d) :
    n.waiting ip = if d.wellFormed then [d] else [] := by
  rw [waiting, h]
  exact List.filter_cons

theorem waiting_of_erase {ip : UInt32}
    (h : n'.unknownDatagramMap = n.unknownDatagramMap.erase ip) :
    n'.waiting ip = [] ∧ ∀ ip' ≠ ip, n'.waiting ip' = n.waiting ip' := by
  refine ⟨waiting_of_none (h ▸ SortedMap.find?_erase_self), fun ip' hne => ?_⟩
  rw [waiting, waiting, h, SortedMap.find?_erase_ne hne]

theorem waiting_of_insert {ip : UInt32} {d : IPv4Datagram}
    (h : n'.unknownDatagramMap = n.unknownDatagramMap.insert ip d) :
    n'.waiting ip = (if d.wellFormed then [d] else []) ∧
      ∀ ip' ≠ ip, n'.waiting ip' = n.waiting ip' := by
  refine ⟨waiting_of_some (h ▸ SortedMap.find?_insert_self), fun ip' hne => ?_⟩
  rw [waiting, waiting, h, SortedMap.find?_insert_ne hne]

/-- What `sendSerialized` does: it queues one frame, or throws and does nothing. -/
theorem sendSerialized_cases (n : NetworkInterface) (eaddr : EthernetAddress) (d : IPv4Datagram) :
    (∃ e, n.sendSerialized eaddr d = (n, .error e) ∧ d.wellFormed = false) ∨
      ∃ payload, d.serialize = .ok payload ∧ d.wellFormed = true ∧
        n.sendSerialized eaddr d = (n.sendPayload eaddr payload EthernetHeader.TYPE_IPv4, .ok ()) := by
  unfold sendSerialized IPv4Datagram.wellFormed
  cases d.serialize with
  | error e => exact .inl ⟨e, rfl, rfl⟩
  | ok payload => exact .inr ⟨payload, rfl, rfl, rfl⟩

theorem learn_ipMap (n : NetworkInterface) (ip : UInt32) (eaddr : EthernetAddress) :
    (n.learn ip eaddr).1.ipMap =
      n.ipMap.insert ip (eaddr, Word64.add n.crtTime MAPPING_EXPIRE_TIME_MS) := by
  unfold learn
  cases n.unknownDatagramMap.find? ip with
  | none => rfl
  | some d =>
    dsimp only
    rcases sendSerialized_cases
      { n with ipMap := n.ipMap.insert ip (eaddr, Word64.add n.crtTime MAPPING_EXPIRE_TIME_MS) }
      eaddr d with ⟨e, heq, -⟩ | ⟨payload, -, -, heq⟩
    · rw [heq]
    · rw [heq]
      rfl

theorem learn_mapped (n : NetworkInterface) (ip : UInt32) (eaddr : EthernetAddress) :
    (n.learn ip eaddr).1.mapped ip = true := by
  rw [mapped, learn_ipMap, SortedMap.find?_insert_self]
  rfl

/-- A mapping is not lost when another one is learned. -/
theorem learn_keeps_mapped {ip : UInt32} (known : n.mapped ip = true) (ip' : UInt32)
    (eaddr : EthernetAddress) : (n.learn ip' eaddr).1.mapped ip = true := by
  by_cases hip : ip = ip'
  · exact hip ▸ learn_mapped n ip eaddr
  · rwa [mapped, learn_ipMap, SortedMap.find?_insert_ne hip]

/-- A mapping that is learned resolves its own hop, and no other. -/
theorem Tracked.resolved_insert (h : Tracked given sent n) {ip : UInt32}
    {mapping : EthernetAddress × Nat} (done : n.waiting ip = []) :
    ∀ ip', (n.ipMap.insert ip mapping).find? ip' ≠ none → n.waiting ip' = [] := by
  intro ip' hmap
  by_cases hip : ip' = ip
  · rw [hip, done]
  · rw [SortedMap.find?_insert_ne hip] at hmap
    exact h.resolved ip' hmap

/-- **Learning a mapping sends what was owed to its hop**, and nothing else. -/
theorem Tracked.learn (h : Tracked given sent n) (ip : UInt32) (eaddr : EthernetAddress) :
    Tracked given (settle given sent ip) (n.learn ip eaddr).1 := by
  rw [h.settle_eq]
  have hquiet : ∀ (mapping : EthernetAddress × Nat), n.waiting ip = [] →
      Tracked given (sent ++ (n.waiting ip).map (ip, ·))
        { n with ipMap := n.ipMap.insert ip mapping } := by
    intro mapping hdone
    rw [hdone, List.map_nil, List.append_nil]
    exact h.unsent rfl (fun _ _ howed => howed) (h.resolved_insert hdone)
  unfold NetworkInterface.learn
  cases hfind : n.unknownDatagramMap.find? ip with
  | none => exact hquiet _ (waiting_of_none hfind)
  | some d =>
    dsimp only
    rcases sendSerialized_cases
      { n with ipMap := n.ipMap.insert ip (eaddr, Word64.add n.crtTime MAPPING_EXPIRE_TIME_MS) }
      eaddr d with ⟨e, heq, hbad⟩ | ⟨payload, hser, hgood, heq⟩
    · rw [heq]
      refine hquiet _ ?_
      rw [waiting_of_some hfind, hbad]
      rfl
    · rw [heq]
      dsimp only
      have hwait : n.waiting ip = [d] := by
        rw [waiting_of_some hfind, hgood]
        rfl
      rw [hwait]
      generalize hout : NetworkInterface.mk _ _ _ _ _ _ _ = out
      have herase : out.unknownDatagramMap = n.unknownDatagramMap.erase ip := hout ▸ rfl
      have hmaps : out.ipMap = n.ipMap.insert ip
          (eaddr, Word64.add n.crtTime MAPPING_EXPIRE_TIME_MS) := hout ▸ rfl
      obtain ⟨hself, hother⟩ := waiting_of_erase herase
      refine h.update [(ip, d)] [{ header := ⟨eaddr, n.ethernetAddress, EthernetHeader.TYPE_IPv4⟩
                                   payload }] ?_ (.cons hser .nil) ?_ ?_
      · rw [← hout]
        exact ipv4Frames_sendPayload { n with ipMap := _ } eaddr payload EthernetHeader.TYPE_IPv4
      · intro ip' before howed
        by_cases hip : ip' = ip
        · rw [hip, forHop_self, hself, List.append_nil]
          rw [hip, hwait] at howed
          exact howed
        · rw [forHop_other d (Ne.symm hip), hother ip' hip, List.append_nil]
          exact howed
      · intro ip' hmap
        by_cases hip : ip' = ip
        · rw [hip, hself]
        · rw [hmaps, SortedMap.find?_insert_ne hip] at hmap
          rw [hother ip' hip]
          exact h.resolved ip' hmap

/-- An ARP message sends what was owed to the hops it teaches, also when the sending throws midway. -/
theorem Tracked.receiveArp (h : Tracked given sent n) (msg : ARPMessage) :
    Tracked given (((msg.teaches.map Prod.fst).filter (n.receiveArp msg).1.mapped).foldl (settle given) sent)
      (n.receiveArp msg).1 := by
  unfold NetworkInterface.receiveArp ARPMessage.teaches
  have hlearn := h.learn msg.senderIpAddress msg.senderEthernetAddress
  have hsender := learn_mapped n msg.senderIpAddress msg.senderEthernetAddress
  generalize n.learn msg.senderIpAddress msg.senderEthernetAddress = out at *
  obtain ⟨learned, result⟩ := out
  cases result with
  | error e =>
    dsimp only at hsender ⊢
    rw [List.map_cons, List.filter_cons_of_pos hsender, List.foldl_cons]
    split
    · -- The target is not learned in this call: it is in the map only if nothing was owed to it.
      rw [List.map_cons, List.map_nil, List.filter_cons, List.filter_nil]
      split
      next hknown =>
        rw [List.foldl_cons, List.foldl_nil, hlearn.settle_resolved hknown]
        exact hlearn
      next => exact hlearn
    · exact hlearn
  | ok _ =>
    dsimp only at hsender ⊢
    split
    next hreply =>
      rw [List.map_cons, List.filter_cons_of_pos (learn_keeps_mapped hsender _ _), List.map_cons,
        List.filter_cons_of_pos (learn_mapped _ _ _)]
      exact hlearn.learn _ _
    next hreply =>
      have hquiet : Quiet learned (if msg.opcode = 1 then learned.answer msg else (learned, .ok ())).1 := by
        split
        · exact answer_quiet _ _
        · exact ⟨rfl, rfl, rfl⟩
      rw [List.map_cons, List.filter_cons_of_pos (by rw [mapped, hquiet.ipMap]; exact hsender)]
      exact hlearn.quiet hquiet

/-- **A frame sends what was owed to the hops learned from it.** -/
theorem Tracked.recvFrame (h : Tracked given sent n) (frame : EthernetFrame) :
    Tracked given ((n.hopsLearned frame).foldl (settle given) sent) (n.recvFrame frame).1 := by
  unfold hopsLearned
  rw [recvFrame_fst]
  cases n.acceptedArp frame with
  | none => exact h
  | some msg => exact h.receiveArp msg

/-- Time only takes mappings away. -/
theorem Tracked.tick (h : Tracked given sent n) (ms : Nat) : Tracked given sent (n.tick ms) := by
  refine ⟨h.carried, h.books, fun ip hmap => h.resolved ip fun hnone => hmap ?_⟩
  exact SortedMap.find?_filter_of_none hnone

/-- The record of what was given: a well-formed datagram for a hop with an IPv4 address. -/
def noteGiven (given : List (UInt32 × IPv4Datagram)) (dgram : IPv4Datagram) (nextHop : Address) :
    List (UInt32 × IPv4Datagram) :=
  match nextHop.ipv4Numeric with
  | .error _ => given
  | .ok ip => if dgram.wellFormed then given ++ [(ip, dgram)] else given

/-- The record of what has to be sent at once: a well-formed datagram for a hop that is known. -/
def noteSent (n : NetworkInterface) (sent : List (UInt32 × IPv4Datagram)) (dgram : IPv4Datagram)
    (nextHop : Address) : List (UInt32 × IPv4Datagram) :=
  match nextHop.ipv4Numeric with
  | .error _ => sent
  | .ok ip =>
    if dgram.wellFormed && n.mapped ip then sent ++ [(ip, dgram)] else sent

/-- Nothing well-formed waits for the hop, if it is unresolved. -/
def Vacant (n : NetworkInterface) : Address → Prop
  | .inet ip _ => n.ipMap.find? ip = none → n.waiting ip = []
  | .other _ => True

instance (n : NetworkInterface) : ∀ nextHop, Decidable (Vacant n nextHop)
  | .inet _ _ => inferInstanceAs (Decidable (_ → _))
  | .other _ => inferInstanceAs (Decidable True)

/-- Sending to a known hop. -/
theorem Tracked.sendKnown (h : Tracked given sent n) (dgram : IPv4Datagram) {ip : UInt32}
    {mapping : EthernetAddress × Nat} (known : n.ipMap.find? ip = some mapping) :
    Tracked (if dgram.wellFormed then given ++ [(ip, dgram)] else given)
      (if dgram.wellFormed then sent ++ [(ip, dgram)] else sent)
      (n.sendSerialized mapping.1 dgram).1 := by
  have hdone : n.waiting ip = [] := h.resolved ip (by rw [known]; exact Option.some_ne_none _)
  rcases sendSerialized_cases n mapping.1 dgram with ⟨e, heq, hbad⟩ | ⟨payload, hser, hgood, heq⟩
  · rw [heq, hbad]
    exact h
  · rw [heq, if_pos hgood, if_pos hgood]
    refine h.update [(ip, dgram)] [_] (ipv4Frames_sendPayload n mapping.1 payload _) (.cons hser .nil)
      ?_ h.resolved
    intro ip' before howed
    show _ = before ++ forHop ip' [(ip, dgram)] ++ n.waiting ip'
    by_cases hip : ip' = ip
    · rw [hip, hdone, List.append_nil] at howed
      rw [hip, forHop_append, howed, hdone, List.append_nil]
    · rw [forHop_append, forHop_other dgram (Ne.symm hip), List.append_nil, List.append_nil]
      exact howed

/-- Keeping a datagram for an unknown hop, where nothing waits. -/
theorem Tracked.keep (h : Tracked given sent n) (dgram : IPv4Datagram) {ip : UInt32}
    (unknown : n.ipMap.find? ip = none) (hdone : n.waiting ip = []) :
    Tracked (if dgram.wellFormed then given ++ [(ip, dgram)] else given) sent
      { n with unknownDatagramMap := n.unknownDatagramMap.insert ip dgram } := by
  generalize hout : NetworkInterface.mk _ _ _ _ _ _ _ = out
  have hinsert : out.unknownDatagramMap = n.unknownDatagramMap.insert ip dgram := hout ▸ rfl
  have hmaps : out.ipMap = n.ipMap := hout ▸ rfl
  have hframes : out.ipv4Frames = n.ipv4Frames := hout ▸ rfl
  obtain ⟨hself, hother⟩ := waiting_of_insert hinsert
  refine h.unsent hframes ?_ ?_
  · intro ip' before howed
    by_cases hip : ip' = ip
    · rw [hip, hdone, List.append_nil] at howed
      rw [hip, hself]
      split
      · rw [forHop_append, forHop_self, howed]
      · rw [howed, List.append_nil]
    · rw [hother ip' hip, ← howed]
      split
      · rw [forHop_append, forHop_other dgram (Ne.symm hip), List.append_nil]
      · rfl
  · intro ip' hmap
    rw [hmaps] at hmap
    have hip : ip' ≠ ip := fun heq => hmap (heq ▸ unknown)
    rw [hother ip' hip]
    exact h.resolved ip' hmap

/-- **Sending keeps the books**, unless it takes the place of a datagram that waits. -/
theorem Tracked.sendDatagram (h : Tracked given sent n) (dgram : IPv4Datagram) {nextHop : Address}
    (vacant : Vacant n nextHop) :
    Tracked (noteGiven given dgram nextHop) (noteSent n sent dgram nextHop)
      (n.sendDatagram dgram nextHop).1 := by
  cases nextHop with
  | other raw => exact h
  | inet ip port =>
    unfold noteGiven noteSent mapped NetworkInterface.sendDatagram Address.ipv4Numeric
    dsimp only
    cases hfind : n.ipMap.find? ip with
    | some mapping =>
      rw [Option.isSome_some, Bool.and_true]
      exact h.sendKnown dgram hfind
    | none =>
      rw [Option.isSome_none, Bool.and_false, if_neg Bool.false_ne_true]
      exact (h.keep dgram hfind (vacant hfind)).quiet (broadCast_quiet _ (.inet ip port))

end NetworkInterface

/-! ## Whole runs -/

/-- An interface with the record of what was given to it and of what had to be sent. -/
structure Resolution where
  net : NetworkInterface
  given : List (UInt32 × IPv4Datagram)
  sent : List (UInt32 × IPv4Datagram)

namespace Resolution

/-- What can happen to an interface. -/
inductive Op
  | send (dgram : IPv4Datagram) (nextHop : Address)
  | recv (frame : EthernetFrame)
  | tick (ms : Nat)

def new (ethernetAddress : EthernetAddress) (ipAddress : Address) : Resolution :=
  ⟨NetworkInterface.new ethernetAddress ipAddress, [], []⟩

/-- One call. What it changed before a throw stays. The records do not look at the datagrams the
interface keeps: a datagram is noted with the hop of its `send_datagram`, and is to be sent in that call
if the hop is known, else in the first call that learns the hop. -/
def step (s : Resolution) : Op → Resolution
  | .send dgram nextHop =>
    { net := (s.net.sendDatagram dgram nextHop).1
      given := NetworkInterface.noteGiven s.given dgram nextHop
      sent := s.net.noteSent s.sent dgram nextHop }
  | .recv frame =>
    { s with
      net := (s.net.recvFrame frame).1
      sent := (s.net.hopsLearned frame).foldl (settle s.given) s.sent }
  | .tick ms => { s with net := s.net.tick ms }

/-- A datagram for an unresolved hop is given only when none waits for that hop. -/
def OneAtATime (s : Resolution) : Op → Prop
  | .send _ nextHop => s.net.Vacant nextHop
  | _ => True

instance (s : Resolution) : ∀ op, Decidable (OneAtATime s op)
  | .send _ nextHop => inferInstanceAs (Decidable (s.net.Vacant nextHop))
  | .recv _ | .tick _ => inferInstanceAs (Decidable True)

variable {s : Resolution}

/-- Every call keeps the books. -/
theorem tracked_step (h : s.net.Tracked s.given s.sent) {op : Op} (ok : OneAtATime s op) :
    (s.step op).net.Tracked (s.step op).given (s.step op).sent := by
  cases op with
  | send dgram nextHop => exact h.sendDatagram dgram ok
  | recv frame => exact h.recvFrame frame
  | tick ms => exact h.tick ms

/-- **No datagram is lost, repeated, or sent at another moment than its hop's**, in every run that gives
datagrams for an unresolved hop one at a time. The frames with datagrams carry, one for one and in order,
what had to be sent; so do the frames that any next call queues. For every hop the datagrams given are,
in order, those sent to it and the one that waits; and none waits for a hop that is resolved. -/
theorem nothing_lost {ethernetAddress : EthernetAddress} {ipAddress : Address}
    (run : Runs.Reach step OneAtATime (new ethernetAddress ipAddress) s) :
    List.Forall₂ (fun p f => p.2.serialize = .ok f.payload) s.sent s.net.ipv4Frames ∧
      (∀ op, OneAtATime s op →
        List.Forall₂ (fun p f => p.2.serialize = .ok f.payload) ((s.step op).sent.drop s.sent.length)
          ((s.step op).net.ipv4Frames.drop s.net.ipv4Frames.length)) ∧
      (∀ ip, forHop ip s.given = forHop ip s.sent ++ s.net.waiting ip) ∧
      ∀ ip, s.net.ipMap.find? ip ≠ none → s.net.waiting ip = [] := by
  have h : s.net.Tracked s.given s.sent :=
    run.invariant (fun s => s.net.Tracked s.given s.sent)
      (NetworkInterface.tracked_new ethernetAddress ipAddress) fun s op ih ok => tracked_step ih ok
  refine ⟨h.carried, fun op ok => ?_, h.books, h.resolved⟩
  rw [← h.carried.length_eq]
  exact List.forall₂_drop _ (tracked_step h ok).carried

/-- A datagram without payload. -/
def emptyDatagram (id : UInt16) : IPv4Datagram := { header := { len := 20, id } }

/-- An ARP reply from host 9 to host 7, to everyone. -/
def replyFrame : EthernetFrame where
  header := { dst := ETHERNET_BROADCAST, type := EthernetHeader.TYPE_ARP }
  payload := BufferList.ofString
    ([0, 1, 8, 0, 6, 4, 0, 2] ++ [9, 9, 9, 9, 9, 9, 0, 0, 0, 9] ++ [7, 7, 7, 7, 7, 7, 0, 0, 0, 7])

/-- Two datagrams wait for two hops, one hop is learned, and two more go out, the last after the mapping
expired. What waits for the other hop stays. -/
theorem nothing_lost_three :
    let s := [.send (emptyDatagram 1) (.inet 9 0), .send (emptyDatagram 4) (.inet 8 0), .recv replyFrame,
      .send (emptyDatagram 2) (.inet 9 0), .tick 30000, .send (emptyDatagram 3) (.inet 9 0),
      .recv replyFrame].foldl step (new EthernetAddress.zero (.inet 7 0))
    List.Forall₂ (fun p f => p.2.serialize = .ok f.payload) s.sent s.net.ipv4Frames ∧
      s.sent = [(9, emptyDatagram 1), (9, emptyDatagram 2), (9, emptyDatagram 3)] ∧
      s.net.waiting 8 = [emptyDatagram 4] := by
  intro s
  exact ⟨(nothing_lost (s := s) (Runs.reach_foldl .start (by decide +kernel))).1, by decide +kernel⟩

/-- **A second datagram for an unresolved hop replaces the first.** Two datagrams are given for host 9
before its reply; both have to be sent when it comes, one frame goes out, and nothing waits any more. -/
theorem second_datagram_lost :
    let s := [.send (emptyDatagram 1) (.inet 9 0), .send (emptyDatagram 2) (.inet 9 0),
      .recv replyFrame].foldl step (new EthernetAddress.zero (.inet 7 0))
    Runs.Reach step (fun _ _ => True) (new EthernetAddress.zero (.inet 7 0)) s ∧
      s.sent = [(9, emptyDatagram 1), (9, emptyDatagram 2)] ∧ s.net.waiting 9 = [] ∧
      ¬ List.Forall₂ (fun p f => p.2.serialize = .ok f.payload) s.sent s.net.ipv4Frames := by
  intro s
  refine ⟨Runs.reach_foldl .start (by decide), by decide +kernel, by decide +kernel, fun hsent => ?_⟩
  have hone : s.net.ipv4Frames.length = 1 := by decide +kernel
  have htwo : s.sent.length = 2 := by decide +kernel
  have hsame := hsent.length_eq
  omega

end Resolution

end Sponge
