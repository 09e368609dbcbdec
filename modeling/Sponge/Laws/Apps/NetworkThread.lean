import Sponge.Apps.Lab7
import Sponge.Laws.Net.FdAdapter

/-!
# Laws.Apps.NetworkThread — the thread that moves frames

The network thread of `apps/lab7.cc` has four rules around a router: two that read a frame, hand it to an
interface and route, and two that take a frame from an interface and send it. The laws are about an
arbitrary predicate `Good` on datagrams that routing keeps (`Relayable`): if the datagrams that are read are
good, then so are all that the thread holds and has sent (`Network.Bearing`), and it fails only where the
kernel does (`Network.Bearing.turn_error`). In particular no frame is taken from an empty queue. A rule is
served after others have been, but those only add frames to its queue (`Router.Grows`).
-/

namespace Sponge

/-! ## What waits at an interface only grows -/

namespace NetworkInterface

theorem framesOut_sendDatagram (n : NetworkInterface) (d : IPv4Datagram) (nextHop : Address) :
    ∃ more, (n.sendDatagram d nextHop).1.framesOut = n.framesOut ++ more := by
  cases nextHop with
  | inet ip port =>
    rcases n.sendDatagram_asks d ip port with ⟨hmute, -⟩ | hasks
    · obtain ⟨more, hmore, -⟩ := hmute.frames
      exact ⟨more, hmore⟩
    · obtain ⟨f, hf, -⟩ := hasks.frames
      exact ⟨[f], hf⟩
  | other raw => exact ⟨[], (List.append_nil _).symm⟩

end NetworkInterface

theorem AsyncNetworkInterface.framesOut_recvFrame (a : AsyncNetworkInterface) (frame : EthernetFrame) :
    ∃ more, (a.recvFrame frame).1.net.framesOut = a.net.framesOut ++ more := by
  obtain ⟨more, hmore, -⟩ := (a.net.mute_recvFrame frame).frames
  refine ⟨more, ?_⟩
  unfold recvFrame
  generalize a.net.recvFrame frame = out at *
  obtain ⟨net, result⟩ := out
  cases result <;> exact hmore

namespace Router

variable {r r' r'' : Router}

/-- No frame that waits is taken away. -/
def Grows (r r' : Router) : Prop := ∀ i, ∃ more, r'.framesOut i = r.framesOut i ++ more

theorem Grows.refl (r : Router) : Grows r r := fun _ => ⟨[], (List.append_nil _).symm⟩

theorem Grows.trans (first : Grows r r') (second : Grows r' r'') : Grows r r'' := by
  intro i
  obtain ⟨more, hmore⟩ := first i
  obtain ⟨more', hmore'⟩ := second i
  exact ⟨more ++ more', by rw [hmore', hmore, List.append_assoc]⟩

theorem Grows.nonempty (h : Grows r r') {i : Nat} (some : r.framesOut i ≠ []) : r'.framesOut i ≠ [] := by
  obtain ⟨more, hmore⟩ := h i
  rw [hmore]
  exact List.append_ne_nil_of_left_ne_nil some more

theorem grows_set {i : Nat} {a a' : AsyncNetworkInterface} (there : r.interfaces[i]? = some a)
    (grows : ∃ more, a'.net.framesOut = a.net.framesOut ++ more) :
    Grows r { r with interfaces := r.interfaces.set i a' } := by
  intro j
  obtain ⟨more, hmore⟩ := grows
  obtain ⟨hlt, -⟩ := List.getElem?_eq_some_iff.mp there
  unfold framesOut
  dsimp only
  rw [List.getElem?_set, if_pos hlt]
  by_cases hij : i = j
  · rw [if_pos hij, ← hij, there]
    exact ⟨more, hmore⟩
  · rw [if_neg hij]
    exact ⟨[], (List.append_nil _).symm⟩

theorem grows_setQueue (r : Router) (i : Nat) (queue : List IPv4Datagram) : Grows r (r.setQueue i queue) := by
  intro j
  refine ⟨[], ?_⟩
  unfold framesOut setQueue
  dsimp only
  rw [List.getElem?_modify, List.append_nil]
  cases r.interfaces[j]? with
  | none => rfl
  | some a => by_cases hij : i = j <;> simp [hij]

theorem grows_routeOneDatagram (r : Router) (d : IPv4Datagram) : Grows r (r.routeOneDatagram d).1 := by
  unfold routeOneDatagram
  cases r.handOff d with
  | none => exact .refl r
  | some call =>
    obtain ⟨i, d', nextHop⟩ := call
    dsimp only
    cases hget : r.interfaces[i]? with
    | none => exact .refl r
    | some a => exact grows_set hget (a.net.framesOut_sendDatagram d' nextHop)

theorem grows_routeQueue (i : Nat) (queue : List IPv4Datagram) (r : Router) :
    Grows r (routeQueue i queue r).1 := by
  induction queue generalizing r with
  | nil => exact .refl r
  | cons d rest ih =>
    have hone := r.grows_routeOneDatagram d
    rw [routeQueue]
    generalize r.routeOneDatagram d = out at *
    obtain ⟨r', d', result⟩ := out
    cases result with
    | error e => exact hone.trans (r'.grows_setQueue i _)
    | ok _ => exact (hone.trans (r'.grows_setQueue i rest)).trans (ih _)

theorem grows_routeFrom (is : List Nat) (r : Router) : Grows r (routeFrom is r).1 := by
  induction is generalizing r with
  | nil => exact .refl r
  | cons i is ih =>
    rw [routeFrom]
    have hqueue := grows_routeQueue i ((r.interfaces[i]?.map AsyncNetworkInterface.datagramsOut).getD []) r
    generalize routeQueue i _ r = out at *
    obtain ⟨r', result⟩ := out
    cases result with
    | error e => exact hqueue
    | ok _ => exact hqueue.trans (ih r')

theorem grows_route (r : Router) : Grows r r.route.1 := grows_routeFrom _ r

end Router

namespace Lab7

open EventLoop (Upholds Kernel)

/-! ## The network thread -/

variable {s s' : Network} {Good Good' : Bytes → Prop} {r : RuleName} {answers : Answers}

/-- What the network thread holds and has sent is good. -/
structure Network.Bearing (Good : Bytes → Prop) (s : Network) : Prop where
  router : s.router.Bearing Good
  two : s.router.interfaces.length = 2
  toHost : ∀ packet ∈ s.frameFd.packets, Heard Good packet
  toInternet : ∀ sent ∈ s.internetSocket.sent, Heard Good sent.2

theorem Network.Bearing.mono (h : s.Bearing Good) (weaker : ∀ packet, Good packet → Good' packet) :
    s.Bearing Good' := by
  refine ⟨⟨h.router.sound, fun a ha => ?_⟩, h.two,
    fun packet hpacket => (h.toHost packet hpacket).mono weaker,
    fun sent hsent => (h.toInternet sent hsent).mono weaker⟩
  obtain ⟨hnet, hqueued⟩ := h.router.interfaces a ha
  refine ⟨hnet.mono weaker, fun d hd ttl => ?_⟩
  obtain ⟨wire, hwire, hgood⟩ := hqueued d hd ttl
  exact ⟨wire, hwire, weaker _ hgood⟩

/-- **A packet is received and routed without an exception**, if what it carries is good. -/
theorem Network.Bearing.receive (h : s.Bearing Good) (relayable : Relayable Good) {side : Nat}
    (there : side < 2) {packet : Bytes} (heard : Heard Good packet) :
    ∃ router, s.receive side packet = .ok { s with router } ∧ { s with router }.Bearing Good ∧
      s.router.Grows router := by
  unfold Network.receive
  dsimp only
  split
  · exact ⟨s.router, rfl, h, .refl _⟩
  next hgood =>
    have hlt : side < s.router.interfaces.length := h.two ▸ there
    have hget := List.getElem?_eq_getElem hlt
    have ha := h.router.interfaces _ (List.mem_of_getElem? hget)
    obtain ⟨hreceived, hok⟩ := ha.recvFrame relayable
      (heard (EthernetFrame.parse {} (Buffer.ofString packet)).2 (Prod.ext (not_not.mp hgood) rfl))
      (show (EthernetFrame.parse {} (Buffer.ofString packet)).2.payload.toBuffer = .ok _ from rfl)
      (BufferList.concatenate_ofBuffer _).symm
    have hgrows : ∃ more, (s.router.interfaces[side].recvFrame
        (EthernetFrame.parse {} (Buffer.ofString packet)).2).1.net.framesOut =
          s.router.interfaces[side].net.framesOut ++ more :=
      AsyncNetworkInterface.framesOut_recvFrame _ _
    have hinterface : s.router.interface side = .ok s.router.interfaces[side] := by
      unfold Router.interface
      rw [hget]
    rw [hinterface]
    change ∃ router, (throws (s.router.interfaces[side].recvFrame _).2 >>= _) = _ ∧ _
    generalize s.router.interfaces[side].recvFrame
      (EthernetFrame.parse {} (Buffer.ofString packet)).2 = received at *
    rw [hok]
    have hset := h.router.set side hreceived
    have hgrown := Router.grows_set hget hgrows
    obtain ⟨⟨-, hcount, hrouted⟩, -⟩ := hset.sound.route
    rw [List.length_set] at hcount
    refine ⟨_, ?_, ⟨hset.route, hcount.trans h.two, h.toHost, h.toInternet⟩,
      hgrown.trans (Router.grows_route _)⟩
    show (throws (Router.route _).2 >>= _) = _
    rw [hrouted]
    rfl

/-- What the packets that are read hold is good. -/
def hearing (Good : Bytes → Prop) : Kernel RuleName Answers where
  answers := fun r answers => (rule r).direction = .In → ∀ p, answers.frame = .ok p → Heard Good p
  hangs := fun _ => True

/-- A rule that pops a frame is asked when one waits. -/
def Owed : RuleName → Network → Prop
  | .routerToHost, s => s.router.framesOut hostSide ≠ []
  | .routerToInternet, s => s.router.framesOut internetSide ≠ []
  | _, _ => True

theorem asks_owed (asked : (rule r).interest s = true) : Owed r s := by
  cases r with
  | hostToRouter => trivial
  | internetToRouter => trivial
  | routerToHost =>
    rintro hnone
    have hasked : (!(s.router.framesOut hostSide).isEmpty) = true := asked
    rw [hnone] at hasked
    cases hasked
  | routerToInternet =>
    rintro hnone
    have hasked : (!(s.router.framesOut internetSide).isEmpty) = true := asked
    rw [hnone] at hasked
    cases hasked

theorem owed_grows (grows : s.router.Grows s'.router) (owed : Owed r s) : Owed r s' := by
  cases r with
  | hostToRouter => trivial
  | internetToRouter => trivial
  | routerToHost => exact grows.nonempty owed
  | routerToInternet => exact grows.nonempty owed

/-- Popping a frame keeps what waits at the other side. -/
theorem framesOut_popFrame (s : Network) {side j : Nat} (other : side ≠ j) :
    (s.popFrame side).router.framesOut j = s.router.framesOut j := by
  unfold Network.popFrame Router.framesOut
  dsimp only
  rw [List.getElem?_modify]
  cases s.router.interfaces[j]? with
  | none => rfl
  | some a => simp [other]

theorem Network.Bearing.popFrame (h : s.Bearing Good) (side : Nat) : (s.popFrame side).Bearing Good := by
  refine ⟨h.router.modify side fun a ha => ?_, ?_, h.toHost, h.toInternet⟩
  · exact ⟨ha.net.pop (List.tail_sublist _).subset, ha.queued⟩
  exact (List.length_modify _ _ _).trans h.two

theorem Network.Bearing.tick (h : s.Bearing Good) (side ms : Nat) : (s.tick side ms).Bearing Good := by
  refine ⟨h.router.modify side fun a ha => ⟨ha.net.tick ms, ha.queued⟩, ?_, h.toHost, h.toInternet⟩
  exact (List.length_modify _ _ _).trans h.two

/-- The frame at the front of a queue is good. -/
theorem Network.Bearing.front (h : s.Bearing Good) {side : Nat} {frame : EthernetFrame}
    {rest : List EthernetFrame} (waits : s.router.framesOut side = frame :: rest) :
    Heard Good frame.serialize.concatenate := by
  unfold Router.framesOut at waits
  cases hget : s.router.interfaces[side]? with
  | none =>
    rw [hget] at waits
    cases waits
  | some a =>
    rw [hget] at waits
    have hframe : frame ∈ a.net.framesOut := by
      rw [show a.net.framesOut = frame :: rest from waits]
      exact List.mem_cons_self
    refine EthernetFrame.Bearing.heard fun htype => ?_
    exact (h.router.interfaces a (List.mem_of_getElem? hget)).net.frames frame
      (List.mem_filter.mpr ⟨hframe, decide_eq_true htype⟩)

/-- **What a callback does**: what the thread holds stays good, the descriptor is used, and the other rules
find what they were asked for. -/
theorem Network.Bearing.callback (h : s.Bearing Good) (relayable : Relayable Good)
    (fair : (hearing Good).answers r answers) (called : (rule r).callback answers s = .ok s') :
    s'.Bearing Good ∧ (rule r).serviceCount s' = (rule r).serviceCount s + 1 ∧
      ∀ r', r' ≠ r → Owed r' s → Owed r' s' := by
  cases r with
  | hostToRouter =>
    obtain ⟨⟨fd, packet⟩, hread, hreceive⟩ := bind_ok called
    have hpacket := FileDescriptor.read_data hread
    obtain ⟨-, hfd⟩ := FileDescriptor.read_ok hread
    have hkept : Bearing Good { s with frameFd := fd } := by
      refine ⟨h.router, h.two, ?_, h.toInternet⟩
      rw [hfd]
      exact h.toHost
    obtain ⟨router, heq, hbearing, hgrows⟩ :=
      hkept.receive relayable (show hostSide < 2 by decide) (fair rfl packet hpacket)
    cases heq.symm.trans hreceive
    refine ⟨hbearing, ?_, fun r' _ howed => owed_grows (s := s) hgrows howed⟩
    show fd.readCount = s.frameFd.readCount + 1
    rw [hfd]
  | internetToRouter =>
    obtain ⟨⟨fd, packet⟩, hread, hreceive⟩ := bind_ok called
    have hpacket := FileDescriptor.read_data hread
    obtain ⟨-, hfd⟩ := FileDescriptor.read_ok hread
    have hkept : Bearing Good { s with internetSocket := { s.internetSocket with fd } } :=
      ⟨h.router, h.two, h.toHost, h.toInternet⟩
    obtain ⟨router, heq, hbearing, hgrows⟩ :=
      hkept.receive relayable (show internetSide < 2 by decide) (fair rfl packet hpacket)
    cases heq.symm.trans hreceive
    refine ⟨hbearing, ?_, fun r' _ howed => owed_grows (s := s) hgrows howed⟩
    show fd.readCount = s.internetSocket.fd.readCount + 1
    rw [hfd]
  | routerToHost =>
    unfold rule routerToHost at called
    dsimp only at called
    split at called
    · cases called
    next frame rest hwaits =>
      obtain ⟨fd, hsend, hdone⟩ := bind_ok called
      cases hdone
      have hfd := FileDescriptor.send_ok hsend
      have hkept : Bearing Good { s with frameFd := fd } := by
        refine ⟨h.router, h.two, fun packet hpacket => ?_, h.toInternet⟩
        rw [hfd] at hpacket
        rcases List.mem_append.mp hpacket with hold | hnew
        · exact h.toHost packet hold
        · rw [List.mem_singleton.mp hnew]
          exact h.front hwaits
      refine ⟨hkept.popFrame hostSide, ?_, fun r' hne howed => ?_⟩
      · show fd.writeCount = s.frameFd.writeCount + 1
        rw [hfd]
      · cases r' with
        | routerToHost => exact absurd rfl hne
        | hostToRouter => trivial
        | internetToRouter => trivial
        | routerToInternet =>
          show Router.framesOut _ internetSide ≠ []
          rw [framesOut_popFrame _ (by decide)]
          exact howed
  | routerToInternet =>
    unfold rule routerToInternet at called
    dsimp only at called
    split at called
    · cases called
    next frame rest hwaits =>
      obtain ⟨sock, hsend, hdone⟩ := bind_ok called
      cases hdone
      have hsock := UDPSocket.sendto_ok hsend
      have hkept : Bearing Good { s with internetSocket := sock } := by
        refine ⟨h.router, h.two, h.toHost, fun sent hsent => ?_⟩
        rw [hsock] at hsent
        rcases List.mem_append.mp hsent with hold | hnew
        · exact h.toInternet sent hold
        · rw [List.mem_singleton.mp hnew]
          exact h.front hwaits
      refine ⟨hkept.popFrame internetSide, ?_, fun r' hne howed => ?_⟩
      · show sock.fd.writeCount = s.internetSocket.fd.writeCount + 1
        rw [hsock]
        rfl
      cases r' with
      | routerToInternet => exact absurd rfl hne
      | hostToRouter => trivial
      | internetToRouter => trivial
      | routerToHost =>
        show Router.framesOut _ hostSide ≠ []
        rw [framesOut_popFrame _ (by decide)]
        exact howed

/-- A callback fails where the kernel does: a frame that is asked for is there, and the router takes and
routes what it is given. -/
theorem Network.Bearing.callback_error (h : s.Bearing Good) (relayable : Relayable Good) (owed : Owed r s)
    (fair : (hearing Good).answers r answers) {e : Failure}
    (failed : (rule r).callback answers s = .error e) : e.OfKernel := by
  cases r with
  | hostToRouter =>
    rcases bind_error failed with hread | ⟨⟨fd, packet⟩, hread, hreceive⟩
    · exact FileDescriptor.read_error hread
    · obtain ⟨-, hfd⟩ := FileDescriptor.read_ok hread
      have hkept : Bearing Good { s with frameFd := fd } := by
        refine ⟨h.router, h.two, ?_, h.toInternet⟩
        rw [hfd]
        exact h.toHost
      obtain ⟨router, heq, -⟩ := hkept.receive relayable (show hostSide < 2 by decide)
        (fair rfl packet (FileDescriptor.read_data hread))
      cases heq.symm.trans hreceive
  | internetToRouter =>
    rcases bind_error failed with hread | ⟨⟨fd, packet⟩, hread, hreceive⟩
    · exact FileDescriptor.read_error hread
    · have hkept : Bearing Good { s with internetSocket := { s.internetSocket with fd } } :=
        ⟨h.router, h.two, h.toHost, h.toInternet⟩
      obtain ⟨router, heq, -⟩ := hkept.receive relayable (show internetSide < 2 by decide)
        (fair rfl packet (FileDescriptor.read_data hread))
      cases heq.symm.trans hreceive
  | routerToHost =>
    unfold rule routerToHost at failed
    dsimp only at failed
    split at failed
    next hnone => exact absurd hnone owed
    next frame rest hwaits =>
      rcases bind_error failed with hsend | ⟨fd, -, hdone⟩
      · exact FileDescriptor.send_error hsend
      · cases hdone
  | routerToInternet =>
    unfold rule routerToInternet at failed
    dsimp only at failed
    split at failed
    next hnone => exact absurd hnone owed
    next frame rest hwaits =>
      rcases bind_error failed with hsend | ⟨fd, -, hdone⟩
      · exact UDPSocket.sendto_error hsend
      · cases hdone

/-- **The four rules keep what the thread holds good.** -/
theorem upholds (relayable : Relayable Good) :
    Upholds rule (hearing Good) (fun _ _ => Network.Bearing Good) Owed where
  spare := id
  cancel := by
    intro n pre r post s _ h
    cases r <;> exact h
  asks := fun _ _ _ hasked => asks_owed hasked
  owedCancel := by
    intro r r' s _ howed
    cases r' <;> exact howed
  owedCallback := by
    intro n rules r r' answers s s' hne h howed hfair hcalled
    exact (h.callback relayable hfair hcalled).2.2 r hne howed
  callback := fun _ h _ hfair hcalled => (h.callback relayable hfair hcalled).1
  busy := by
    intro n rules r answers s s' _ h _ hfair hcalled
    left
    rw [(h.callback relayable hfair hcalled).2.1]
    exact FileDescriptor.count_ne_add (by decide)

theorem Network.Bearing.turn {c : List RuleName × Network} (h : c.2.Bearing Good) (nodup : c.1.Nodup)
    (relayable : Relayable Good) {poll : EventLoop.Poll RuleName Answers} (polls : (hearing Good).Polls poll)
    {exitFlag more : Bool} {kept : List RuleName} (turned : turn c poll exitFlag = .ok (more, kept, s')) :
    s'.Bearing Good ∧ kept.Sublist c.1 := by
  obtain ⟨⟨result, kept', waited⟩, hwait, hdone⟩ := bind_ok turned
  obtain ⟨hwaited, hsub⟩ := (upholds relayable).wait (n := 0) nodup h polls hwait
  dsimp only at hdone
  split at hdone
  · cases hdone
    exact ⟨hwaited, hsub⟩
  · cases hdone
    exact ⟨(hwaited.tick hostSide 50).tick internetSide 50, hsub⟩

/-- **The thread fails only where the kernel does.** -/
theorem Network.Bearing.turn_error {c : List RuleName × Network} (h : c.2.Bearing Good) (nodup : c.1.Nodup)
    (relayable : Relayable Good) {poll : EventLoop.Poll RuleName Answers} (polls : (hearing Good).Polls poll)
    {exitFlag : Bool} {e : Failure} (failed : Lab7.turn c poll exitFlag = .error e) :
    e = EventLoop.pollError ∨ e.OfKernel := by
  rcases bind_error failed with hwait | ⟨⟨result, kept, waited⟩, -, hdone⟩
  · refine ((upholds relayable).wait_error (n := 0) nodup h polls hwait).imp_right ?_
    rintro ⟨_, _, _, _, _, -, hbearing, howed, hfair, hcallback⟩
    exact hbearing.callback_error relayable howed hfair hcallback
  · dsimp only at hdone
    split at hdone <;> cases hdone

end Lab7

end Sponge
