import Sponge.Laws.Net.Interface
import Sponge.Lib.Expiring

/-!
# Laws.Net.ArpCache — the address map over whole runs

An interface learns from every ARP message it accepts: the sender, and for a reply the target too.
An `ArpCache` is an interface with what it was taught (`lessons`), the time that has passed, and records
of the datagrams given to `send_datagram`. `parked` has for a hop the datagram last given for it while it
was unknown. An `Emission` is a datagram with the hop it was given for and with what the map held for
that hop at the moment it was to be sent: at once for a known hop, and in the lesson of its hop for a
parked one.

The map is the expiring map of the lessons (`Expiring.Agrees`), a hop never has both a mapping and a
waiting datagram, and the frames queued are the emissions one for one, each with the datagram of its
emission and addressed to what the map held.
-/

namespace Sponge

open Expiring (Lesson Agrees)

namespace NetworkInterface

variable {n : NetworkInterface}

/-- Every datagram that waits can be serialized. -/
def WaitsWell (n : NetworkInterface) : Prop :=
  ∀ ip d, n.unknownDatagramMap.find? ip = some d → d.wellFormed = true

/-- What `learn` does when what waits can be serialized: it maps the hop, and queues what waits for it
as one frame to the address learned. -/
theorem learn_spec (well : n.WaitsWell) (ip : UInt32) (eaddr : EthernetAddress) :
    let out := n.learn ip eaddr
    out.2 = .ok () ∧ out.1.ipMap = n.ipMap.insert ip (eaddr, Word64.add n.crtTime MAPPING_EXPIRE_TIME_MS) ∧
      out.1.crtTime = n.crtTime ∧
      (∀ ip', out.1.unknownDatagramMap.find? ip' =
        if ip' = ip then none else n.unknownDatagramMap.find? ip') ∧
      ∃ frames : List EthernetFrame, out.1.ipv4Frames = n.ipv4Frames ++ frames ∧
        List.Forall₂ (fun d f => d.serialize = .ok f.payload ∧ f.header.dst = eaddr)
          (n.unknownDatagramMap.find? ip).toList frames := by
  unfold learn
  cases hfind : n.unknownDatagramMap.find? ip with
  | none =>
    refine ⟨rfl, rfl, rfl, fun ip' => ?_, [], (List.append_nil _).symm, .nil⟩
    show n.unknownDatagramMap.find? ip' = _
    split
    next heq => exact heq ▸ hfind
    next => rfl
  | some d =>
    dsimp only
    rcases sendSerialized_cases
      { n with ipMap := n.ipMap.insert ip (eaddr, Word64.add n.crtTime MAPPING_EXPIRE_TIME_MS) }
      eaddr d with ⟨e, -, hbad⟩ | ⟨payload, hser, -, heq⟩
    · rw [well ip d hfind] at hbad
      cases hbad
    · rw [heq]
      refine ⟨rfl, rfl, rfl, fun ip' => ?_, _,
        ipv4Frames_sendPayload { n with ipMap := _ } eaddr payload EthernetHeader.TYPE_IPv4, ?_⟩
      · show (n.unknownDatagramMap.erase ip).find? ip' = _
        split
        next hip => rw [hip, SortedMap.find?_erase_self]
        next hip => rw [SortedMap.find?_erase_ne hip]
      · exact .cons ⟨hser, rfl⟩ .nil

theorem sendArp_crtTime (n : NetworkInterface) (eaddr : EthernetAddress) (msg : ARPMessage) :
    (n.sendArp eaddr msg).1.crtTime = n.crtTime := by
  unfold sendArp
  cases msg.serialize with
  | error e => rfl
  | ok payload => rfl

theorem answer_crtTime (n : NetworkInterface) (msg : ARPMessage) :
    (n.answer msg).1.crtTime = n.crtTime := by
  unfold answer
  cases n.ipAddress.ipv4Numeric with
  | error e => rfl
  | ok own =>
    dsimp only
    split
    · exact sendArp_crtTime n _ _
    · rfl

theorem broadCast_crtTime (n : NetworkInterface) (addr : Address) :
    (n.broadCast addr).1.crtTime = n.crtTime := by
  cases hinet : addr.ipv4Numeric with
  | error e => rw [broadCast, hinet]
  | ok ip =>
    rcases n.broadCast_cases hinet with ⟨-, heq⟩ | ⟨-, ⟨e, -, heq⟩ | ⟨own, payload, -, -, heq⟩⟩
    · rw [heq]
    · rw [heq]
    · rw [heq]
      rfl

end NetworkInterface

/-- A datagram with the hop it was given for, and what the map held for that hop when it was to be sent. -/
structure Emission where
  hop : UInt32
  dgram : IPv4Datagram
  held : Option EthernetAddress

/-- The frame carries the datagram to the address held. -/
def Emission.Carries (e : Emission) (f : EthernetFrame) : Prop :=
  e.dgram.serialize = .ok f.payload ∧ e.held = some f.header.dst

/-- An interface with what it was taught and when, the time passed, the datagrams given to it with their
hops, those given for a hop while it was unknown, and what had to be sent. -/
structure ArpCache where
  net : NetworkInterface
  elapsed : Nat
  lessons : List (Lesson UInt32 EthernetAddress)
  given : List (UInt32 × IPv4Datagram)
  parked : UInt32 → Option IPv4Datagram
  emitted : List Emission

namespace ArpCache

def new (ethernetAddress : EthernetAddress) (ipAddress : Address) : ArpCache :=
  ⟨NetworkInterface.new ethernetAddress ipAddress, 0, [], [], fun _ => none, []⟩

/-- The record that a datagram given for `ip` is sent, while the map is that of `net`. -/
def emission (net : NetworkInterface) (ip : UInt32) (dgram : IPv4Datagram) : Emission :=
  ⟨ip, dgram, (net.ipMap.find? ip).map Prod.fst⟩

/-- One lesson of an ARP message: what is parked for its hop is to be sent. -/
def beTaught (s : ArpCache) (lesson : UInt32 × EthernetAddress) : ArpCache :=
  let net := (s.net.learn lesson.1 lesson.2).1
  { s with
    net
    lessons := s.lessons ++ [⟨lesson.1, lesson.2, s.elapsed⟩]
    parked := Function.update s.parked lesson.1 none
    emitted := s.emitted ++ (s.parked lesson.1).toList.map (emission net lesson.1) }

/-- A datagram is given for a hop. -/
def beGiven (s : ArpCache) (dgram : IPv4Datagram) (ip : UInt32) (net : NetworkInterface) : ArpCache :=
  let noted := { s with net, given := s.given ++ [(ip, dgram)] }
  if s.net.mapped ip then { noted with emitted := s.emitted ++ [emission net ip dgram] }
  else { noted with parked := Function.update s.parked ip (some dgram) }

/-- One call. A frame's lessons are logged one by one. -/
def step (s : ArpCache) : Resolution.Op → ArpCache
  | .send dgram nextHop =>
    match nextHop with
    | .inet ip _ => s.beGiven dgram ip (s.net.sendDatagram dgram nextHop).1
    | .other _ => { s with net := (s.net.sendDatagram dgram nextHop).1 }
  | .recv frame =>
    let taught := ((s.net.acceptedArp frame).elim [] ARPMessage.teaches).foldl beTaught s
    { taught with net := (s.net.recvFrame frame).1 }
  | .tick ms => { s with net := s.net.tick ms, elapsed := s.elapsed + ms }

/-- Datagrams can be serialized, and the time that passes stays below `2 ^ 63`. -/
def Allowed (s : ArpCache) : Resolution.Op → Prop
  | .send dgram _ => dgram.wellFormed = true
  | .recv _ => True
  | .tick ms => s.elapsed + ms < 2 ^ 63

instance (s : ArpCache) : ∀ op, Decidable (Allowed s op)
  | .send _ _ => inferInstanceAs (Decidable (_ = true))
  | .recv _ => inferInstanceAs (Decidable True)
  | .tick _ => inferInstanceAs (Decidable (_ < _))

/-- What holds between calls, and between the lessons of a message. -/
structure Correct (s : ArpCache) : Prop where
  clock : s.net.crtTime = s.elapsed
  early : s.elapsed < 2 ^ 63
  agrees : Agrees NetworkInterface.MAPPING_EXPIRE_TIME_MS s.elapsed s.lessons s.net.ipMap
  apart : ∀ ip, s.net.ipMap.find? ip ≠ none → s.net.unknownDatagramMap.find? ip = none
  waitsWell : s.net.WaitsWell
  parked : ∀ ip, s.parked ip = s.net.unknownDatagramMap.find? ip
  parkedGiven : ∀ ip d, s.parked ip = some d → (ip, d) ∈ s.given
  carried : List.Forall₂ Emission.Carries s.emitted s.net.ipv4Frames
  emittedGiven : ∀ e ∈ s.emitted, (e.hop, e.dgram) ∈ s.given

variable {s : ArpCache}

theorem correct_new (ethernetAddress : EthernetAddress) (ipAddress : Address) :
    Correct (new ethernetAddress ipAddress) where
  clock := rfl
  early := Nat.two_pow_pos 63
  agrees := Expiring.agrees_empty _ _
  apart := fun _ h => absurd rfl h
  waitsWell := fun _ _ h => by cases h
  parked := fun _ => rfl
  parkedGiven := fun _ _ h => by cases h
  carried := .nil
  emittedGiven := fun _ h => by cases h

/-- **A lesson keeps the cache correct.** -/
theorem Correct.beTaught (h : Correct s) (lesson : UInt32 × EthernetAddress) :
    Correct (s.beTaught lesson) ∧ (s.net.learn lesson.1 lesson.2).2 = .ok () := by
  obtain ⟨ip, eaddr⟩ := lesson
  obtain ⟨hok, hmap, hclock, hunknown, frames, hframes, hcarried⟩ :=
    NetworkInterface.learn_spec h.waitsWell ip eaddr
  have hexpiry : Word64.add s.net.crtTime NetworkInterface.MAPPING_EXPIRE_TIME_MS =
      s.elapsed + NetworkInterface.MAPPING_EXPIRE_TIME_MS := by
    have hearly := h.early
    rw [h.clock]
    exact Word64.add_eq (by unfold NetworkInterface.MAPPING_EXPIRE_TIME_MS; omega)
  rw [hexpiry] at hmap
  refine ⟨?_, hok⟩
  unfold ArpCache.beTaught
  dsimp only
  generalize s.net.learn ip eaddr = out at *
  have hheld : (out.1.ipMap.find? ip).map Prod.fst = some eaddr := by
    rw [hmap, SortedMap.find?_insert_self]
    rfl
  refine ⟨hclock.trans h.clock, h.early, ?_, ?_, ?_, ?_, ?_, ?_, ?_⟩
  · show Agrees _ _ _ out.1.ipMap
    rw [hmap]
    exact h.agrees.learn (by decide) ip eaddr
  · intro ip' hknown
    show out.1.unknownDatagramMap.find? ip' = none
    rw [hunknown]
    split
    · rfl
    next hip =>
      apply h.apart
      have hknown : out.1.ipMap.find? ip' ≠ none := hknown
      rwa [hmap, SortedMap.find?_insert_ne hip] at hknown
  · intro ip' d hwait
    have hwait : out.1.unknownDatagramMap.find? ip' = some d := hwait
    rw [hunknown] at hwait
    split at hwait
    · cases hwait
    · exact h.waitsWell ip' d hwait
  · intro ip'
    show Function.update s.parked ip none ip' = out.1.unknownDatagramMap.find? ip'
    rw [hunknown, Function.update_apply]
    split
    · rfl
    · exact h.parked ip'
  · intro ip' d hwait
    have hwait : Function.update s.parked ip none ip' = some d := hwait
    rw [Function.update_apply] at hwait
    split at hwait
    · cases hwait
    · exact h.parkedGiven ip' d hwait
  · show List.Forall₂ Emission.Carries _ out.1.ipv4Frames
    rw [hframes, h.parked ip]
    refine List.rel_append h.carried (List.forall₂_map_left_iff.mpr ?_)
    exact hcarried.imp fun d f hf => ⟨hf.1, hheld.trans (congrArg some hf.2.symm)⟩
  · intro e he
    rcases List.mem_append.mp he with hold | hnew
    · exact h.emittedGiven e hold
    · obtain ⟨d, hd, rfl⟩ := List.mem_map.mp hnew
      exact h.parkedGiven ip d (Option.mem_toList.mp hd)

/-- Replacing the interface by one that differs in its ARP traffic only. -/
theorem Correct.quiet (h : Correct s) {net : NetworkInterface}
    (quiet : NetworkInterface.Quiet s.net net) (clock : net.crtTime = s.net.crtTime) :
    Correct { s with net } where
  clock := clock.trans h.clock
  early := h.early
  agrees := by
    show Agrees _ _ _ net.ipMap
    rw [quiet.ipMap]
    exact h.agrees
  apart := by
    intro ip
    show net.ipMap.find? ip ≠ none → net.unknownDatagramMap.find? ip = none
    rw [quiet.ipMap, quiet.unknown]
    exact h.apart ip
  waitsWell := by
    intro ip d
    show net.unknownDatagramMap.find? ip = some d → _
    rw [quiet.unknown]
    exact h.waitsWell ip d
  parked := by
    intro ip
    show s.parked ip = net.unknownDatagramMap.find? ip
    rw [quiet.unknown]
    exact h.parked ip
  parkedGiven := h.parkedGiven
  carried := by
    show List.Forall₂ Emission.Carries s.emitted net.ipv4Frames
    rw [quiet.frames]
    exact h.carried
  emittedGiven := h.emittedGiven

/-- The lessons of a message, one by one, are what `receiveArp` learns. -/
theorem Correct.receiveArp (h : Correct s) (msg : ARPMessage) :
    Correct { msg.teaches.foldl ArpCache.beTaught s with net := (s.net.receiveArp msg).1 } := by
  obtain ⟨hsender, hok⟩ := h.beTaught (msg.senderIpAddress, msg.senderEthernetAddress)
  have hnet : (s.beTaught (msg.senderIpAddress, msg.senderEthernetAddress)).net =
    (s.net.learn msg.senderIpAddress msg.senderEthernetAddress).1 := rfl
  unfold NetworkInterface.receiveArp ARPMessage.teaches
  rw [List.foldl_cons]
  generalize s.beTaught (msg.senderIpAddress, msg.senderEthernetAddress) = told at *
  generalize s.net.learn msg.senderIpAddress msg.senderEthernetAddress = out at *
  obtain ⟨learned, result⟩ := out
  dsimp only at hok hnet
  subst hok hnet
  dsimp only
  by_cases hreply : msg.opcode = 2
  · rw [if_pos hreply, if_pos hreply]
    exact (hsender.beTaught (msg.targetIpAddress, msg.targetEthernetAddress)).1
  · rw [if_neg hreply, if_neg hreply]
    split
    · exact hsender.quiet (NetworkInterface.answer_quiet _ _) (NetworkInterface.answer_crtTime _ _)
    · exact hsender

theorem Correct.recv (h : Correct s) (frame : EthernetFrame) : Correct (s.step (.recv frame)) := by
  unfold step
  dsimp only
  rw [NetworkInterface.recvFrame_fst]
  cases s.net.acceptedArp frame with
  | none => exact h
  | some msg => exact h.receiveArp msg

/-- Sending to a known hop queues a frame to the address the map holds. -/
theorem Correct.sendKnown (h : Correct s) {dgram : IPv4Datagram} (well : dgram.wellFormed = true)
    {ip : UInt32} {mapping : EthernetAddress × Nat} (known : s.net.ipMap.find? ip = some mapping) :
    Correct { s with
      net := (s.net.sendSerialized mapping.1 dgram).1
      given := s.given ++ [(ip, dgram)]
      emitted := s.emitted ++ [emission (s.net.sendSerialized mapping.1 dgram).1 ip dgram] } := by
  rcases NetworkInterface.sendSerialized_cases s.net mapping.1 dgram with
    ⟨e, -, hbad⟩ | ⟨payload, hser, -, heq⟩
  · rw [well] at hbad
    cases hbad
  · rw [heq]
    have hqueued := NetworkInterface.ipv4Frames_sendPayload s.net mapping.1 payload
      EthernetHeader.TYPE_IPv4
    refine ⟨h.clock, h.early, h.agrees, h.apart, h.waitsWell, h.parked, ?_, ?_, ?_⟩
    · intro ip' d hwait
      exact List.mem_append_left _ (h.parkedGiven ip' d hwait)
    · show List.Forall₂ Emission.Carries _ (NetworkInterface.ipv4Frames _)
      rw [hqueued]
      exact List.rel_append h.carried (.cons ⟨hser, congrArg (Option.map Prod.fst) known⟩ .nil)
    · intro e he
      rcases List.mem_append.mp he with hold | hnew
      · exact List.mem_append_left _ (h.emittedGiven e hold)
      · rw [List.mem_singleton] at hnew
        subst hnew
        exact List.mem_append_right _ (List.mem_singleton_self _)

/-- A datagram for an unknown hop is kept, in the place of one that waited, and no frame is queued. -/
theorem Correct.keep (h : Correct s) {dgram : IPv4Datagram} (well : dgram.wellFormed = true)
    {ip : UInt32} (unknown : s.net.ipMap.find? ip = none) :
    Correct { s with
      net := { s.net with unknownDatagramMap := s.net.unknownDatagramMap.insert ip dgram }
      given := s.given ++ [(ip, dgram)]
      parked := Function.update s.parked ip (some dgram) } := by
  refine ⟨h.clock, h.early, h.agrees, ?_, ?_, ?_, ?_, h.carried, ?_⟩
  · intro ip' hknown
    have hip : ip' ≠ ip := fun heq => hknown (heq ▸ unknown)
    exact (SortedMap.find?_insert_ne hip).trans (h.apart ip' hknown)
  · intro ip' d hwait
    have hwait : (s.net.unknownDatagramMap.insert ip dgram).find? ip' = some d := hwait
    by_cases hip : ip' = ip
    · rw [hip, SortedMap.find?_insert_self] at hwait
      cases hwait
      exact well
    · rw [SortedMap.find?_insert_ne hip] at hwait
      exact h.waitsWell ip' d hwait
  · intro ip'
    show Function.update s.parked ip (some dgram) ip' = (s.net.unknownDatagramMap.insert ip dgram).find? ip'
    by_cases hip : ip' = ip
    · rw [hip, Function.update_self, SortedMap.find?_insert_self]
    · rw [Function.update_of_ne hip, SortedMap.find?_insert_ne hip]
      exact h.parked ip'
  · intro ip' d hwait
    have hwait : Function.update s.parked ip (some dgram) ip' = some d := hwait
    by_cases hip : ip' = ip
    · rw [hip, Function.update_self] at hwait
      cases hwait
      exact hip ▸ List.mem_append_right _ (List.mem_singleton_self _)
    · rw [Function.update_of_ne hip] at hwait
      exact List.mem_append_left _ (h.parkedGiven ip' d hwait)
  · exact fun e he => List.mem_append_left _ (h.emittedGiven e he)

theorem Correct.send (h : Correct s) {dgram : IPv4Datagram} (well : dgram.wellFormed = true)
    (nextHop : Address) : Correct (s.step (.send dgram nextHop)) := by
  cases nextHop with
  | other raw => exact h
  | inet ip port =>
    unfold step beGiven NetworkInterface.mapped NetworkInterface.sendDatagram Address.ipv4Numeric
    dsimp only
    cases hfind : s.net.ipMap.find? ip with
    | some mapping => exact h.sendKnown well hfind
    | none =>
      exact (h.keep well hfind).quiet (NetworkInterface.broadCast_quiet _ (.inet ip port))
        (NetworkInterface.broadCast_crtTime _ (.inet ip port))

theorem Correct.tick (h : Correct s) {ms : Nat} (early : s.elapsed + ms < 2 ^ 63) :
    Correct (s.step (.tick ms)) := by
  have hclock : Word64.add s.net.crtTime ms = s.elapsed + ms := by
    rw [h.clock]
    exact Word64.add_eq (by omega)
  have hagrees := h.agrees.expire (Nat.le_add_right s.elapsed ms)
  refine ⟨hclock, early, ?_, ?_, h.waitsWell, h.parked, h.parkedGiven, h.carried, h.emittedGiven⟩
  · show Agrees _ _ _ (s.net.ipMap.filter fun e => Word64.add s.net.crtTime ms < e.2.2)
    rw [hclock]
    exact hagrees
  · intro ip hknown
    refine h.apart ip fun hnone => hknown ?_
    exact SortedMap.find?_filter_of_none hnone

/-- **The address map is right over every run.** It holds for every address the latest lesson while
that is less than thirty seconds old, and no address is both mapped and waited for. Every IPv4 frame
carries a datagram that `send_datagram` was given, and went to the address the map held, at the moment it
was queued, for the hop the datagram was given for. -/
theorem cache_correct {ethernetAddress : EthernetAddress} {ipAddress : Address}
    (run : Runs.Reach step Allowed (new ethernetAddress ipAddress) s) :
    (∀ ip, (s.net.ipMap.find? ip).map Prod.fst = Expiring.live 30000 s.elapsed s.lessons ip) ∧
      (∀ ip, s.net.ipMap.find? ip = none ∨ s.net.unknownDatagramMap.find? ip = none) ∧
      List.Forall₂ (fun e f => e.dgram.serialize = .ok f.payload ∧ e.held = some f.header.dst)
        s.emitted s.net.ipv4Frames ∧
      ∀ e ∈ s.emitted, (e.hop, e.dgram) ∈ s.given := by
  have h : Correct s := by
    refine run.invariant Correct (correct_new ethernetAddress ipAddress) ?_
    intro s op ih ok
    cases op with
    | send dgram nextHop => exact ih.send ok nextHop
    | recv frame => exact ih.recv frame
    | tick ms => exact ih.tick ok
  refine ⟨h.agrees.live_eq, fun ip => ?_, h.carried, h.emittedGiven⟩
  by_cases hmap : s.net.ipMap.find? ip = none
  · exact .inl hmap
  · exact .inr (h.apart ip hmap)

/-- A datagram waits for host 9, the reply comes, and time passes beyond the mapping. -/
theorem cache_correct_reply :
    let s := [.send (Resolution.emptyDatagram 1) (.inet 9 0), .recv Resolution.replyFrame, .tick 29999,
      .send (Resolution.emptyDatagram 2) (.inet 9 0), .tick 1].foldl step
        (new EthernetAddress.zero (.inet 7 0))
    (∀ ip, (s.net.ipMap.find? ip).map Prod.fst = Expiring.live 30000 s.elapsed s.lessons ip) ∧
      (∀ ip, s.net.ipMap.find? ip = none ∨ s.net.unknownDatagramMap.find? ip = none) ∧
      List.Forall₂ (fun e f => e.dgram.serialize = .ok f.payload ∧ e.held = some f.header.dst)
        s.emitted s.net.ipv4Frames ∧
      ∀ e ∈ s.emitted, (e.hop, e.dgram) ∈ s.given :=
  cache_correct (Runs.reach_foldl .start (by decide +kernel))

end ArpCache

end Sponge
