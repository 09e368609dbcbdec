import Sponge.Laws.Net.FdAdapter
import Sponge.Laws.Tcp.Duplex
import Sponge.Laws.Tcp.Finished
import Sponge.Tcp.Socket

/-!
# Laws.Tcp.Socket — the thread behind a socket

Every closure of the event loop, and the tick behind it, is a few calls of the connection (`Does`): the
socket refines an `Endpoint`, with what the connection has queued put behind what was popped and handed to
the adapter. What holds of a connection along its calls therefore holds of the socket's along the turns of
its loop.
-/

namespace Sponge

/-- The first filling of a window sends the SYN. -/
theorem TCPSender.fillWindow_new (capacity : Nat) (retxTimeout : UInt16) (isn : WrappingInt32) :
    (new capacity retxTimeout isn).fillWindow = (new capacity retxTimeout isn).send [] false := by
  have hturn : (new capacity retxTimeout isn).fillTurn =
      ((new capacity retxTimeout isn).send [] false, true) := rfl
  rw [fillWindow_eq (marked_new capacity retxTimeout isn).finLast, hturn]
  exact fillWindow_of_silent (fun hc => absurd hc Bool.false_ne_true) ⟨rfl, .inl rfl⟩

namespace TCPConnection

variable {c : TCPConnection}

theorem state_connect (cfg : TCPConfig) : (new cfg).connect.state = TCPState.official .synSent := by
  have hfill : (new cfg).sender.fillWindow = (new cfg).sender.send [] false :=
    TCPSender.fillWindow_new cfg.sendCapacity cfg.rtTimeout cfg.isn
  unfold connect
  rw [hfill]
  rfl

/-- A connection that is over is not woken by the end of its outbound stream. -/
theorem Ready.endInputStream_over (h : c.Ready) (inactive : c.active = false) :
    c.endInputStream.active = false := by
  rcases (active_eq_false_iff c).mp inactive with hrst | ⟨hself, -⟩
  · obtain ⟨hdrained, -⟩ := (h.sound.turn .endInputStream).sendSegs
    exact (active_eq_false_iff _).mpr (.inl (hdrained.rst.trans hrst))
  · -- the own FIN was acknowledged, so it was sent, and there is nothing to send
    have hfin := h.sound.acked hself
    have hsame : c.sender.endInput = c.sender := TCPSender.endInput_of_end (h.sound.marked.ended hfin)
    unfold endInputStream
    rw [hsame, TCPSender.fillWindow_of_finSent h.sound.marked.finLast hfin, sendSegs_of_empty h.empty]
    exact inactive

/-- Only the owner ends the outbound stream. -/
theorem Ready.step_isEnd (h : c.Ready) (op : Op) (ended : (c.step op).sender.stream.isEnd = true) :
    c.sender.stream.isEnd = true ∨ endsInput op = true := by
  generalize hnext : c.step op = c' at ended
  have call : Call c op c' := hnext ▸ c.call_step op
  cases call with
  | turn turn =>
    rw [((h.sound.turn turn).sendSegs).1.sender] at ended
    exact h.sound.turn_isEnd turn ended
  | _ => exact .inl ended

end TCPConnection

namespace Endpoint

open TCPConnection (Op endsInput)

variable {p : Endpoint}

theorem tidy_foldl (h : p.conn.Tidy) (ops : List Op) : (ops.foldl step p).conn.Tidy := by
  induction ops generalizing p with
  | nil => exact h
  | cons op ops ih => exact ih (h.step op)

theorem isEnd_foldl (h : p.conn.Tidy) {ops : List Op}
    (ended : (ops.foldl step p).conn.sender.stream.isEnd = true) :
    p.conn.sender.stream.isEnd = true ∨ ops.any endsInput = true := by
  induction ops generalizing p with
  | nil => exact .inl ended
  | cons op ops ih =>
    rw [List.any_cons, Bool.or_eq_true, ← or_assoc]
    rcases ih (p := p.step op) (h.step op) ended with hbefore | hlater
    · exact .inl (h.ready.step_isEnd op hbefore)
    · exact .inr hlater

end Endpoint

namespace TCPSpongeSocket

open TCPConnection (Op endsInput)
open EventLoop (Upholds Kernel)

variable {α : Type} {s s' : TCPSpongeSocket α} {r : RuleName}

/-! ## What the closures do -/

/-- The connection with what was popped put back, what the owner wrote, and what the owner was given. -/
def shadow (s : TCPSpongeSocket α) : Endpoint :=
  ⟨s.tcp.behind s.handed, s.threadData.received, s.threadData.delivered⟩

theorem shadow_step (s : TCPSpongeSocket α) (op : Op) :
    s.shadow.step op = ⟨(s.tcp.step op).behind s.handed, s.threadData.received ++ s.tcp.accepts op,
      s.threadData.delivered ++ s.tcp.yields op⟩ := by
  unfold shadow Endpoint.step
  rw [TCPConnection.step_behind]
  rfl

/-- What a closure comes to: a few calls of the connection. -/
structure Does (s : TCPSpongeSocket α) (ops : List Op) (s' : TCPSpongeSocket α) : Prop where
  shadow : s'.shadow = ops.foldl Endpoint.step s.shadow
  few : ops.length ≤ 2
  shutdown : s'.outboundShutdown = (s.outboundShutdown || ops.any endsInput)

theorem Does.nothing (s : TCPSpongeSocket α) : Does s [] s :=
  ⟨rfl, Nat.zero_le _, (Bool.or_false _).symm⟩

theorem shadow_endOutbound (s : TCPSpongeSocket α) :
    s.endOutbound.shadow = s.shadow.step .endInputStream := by
  rw [shadow_step]
  unfold TCPConnection.accepts TCPConnection.yields
  dsimp only
  rw [List.append_nil, List.append_nil]
  rfl

theorem does_tick (s : TCPSpongeSocket α) (adapter : α) (ms : Nat) :
    Does s [.tick ms] { s with tcp := s.tcp.tick ms, adapter } := by
  refine ⟨?_, Nat.le_succ 1, (Bool.or_false _).symm⟩
  show _ = s.shadow.step (.tick ms)
  rw [shadow_step]
  unfold TCPConnection.accepts TCPConnection.yields
  dsimp only
  rw [List.append_nil, List.append_nil]
  rfl

variable [FdAdapter α] {answers : Answers α}

/-- Cancelling a rule ends the outbound stream, or does nothing. -/
theorem cancel_does (r : RuleName) (s : TCPSpongeSocket α) :
    ∃ ops, Does s ops ((rule r).cancel s) ∧ ∀ seg, .segmentReceived seg ∉ ops := by
  cases r with
  | readThread =>
    refine ⟨[.endInputStream], ⟨s.shadow_endOutbound, Nat.le_succ 1, ?_⟩, fun seg hseg => ?_⟩
    · exact (Bool.or_true _).symm
    · cases List.mem_singleton.mp hseg
  | readDatagram => exact ⟨[], .nothing s, fun _ => List.not_mem_nil⟩
  | writeThread => exact ⟨[], .nothing s, fun _ => List.not_mem_nil⟩
  | writeDatagram => exact ⟨[], .nothing s, fun _ => List.not_mem_nil⟩

theorem readDatagram_ok (h : readDatagram answers s = .ok s') : ∃ adapter seg,
    FdAdapter.read s.adapter answers.packet (answers.writes 0) = .ok (adapter, seg) ∧
      s'.adapter = adapter ∧ s'.handed = s.handed ∧ s'.threadData = s.threadData ∧
      Does s (seg.toList.map .segmentReceived) s' := by
  obtain ⟨⟨adapter, seg⟩, hread, h⟩ := bind_ok h
  refine ⟨adapter, seg, hread, ?_⟩
  cases seg with
  | none =>
    cases h
    exact ⟨rfl, rfl, rfl, rfl, Nat.zero_le _, (Bool.or_false _).symm⟩
  | some seg =>
    cases h
    refine ⟨rfl, rfl, rfl, ?_, Nat.le_succ 1, (Bool.or_false _).symm⟩
    show _ = s.shadow.step (.segmentReceived seg)
    rw [shadow_step]
    unfold TCPConnection.accepts TCPConnection.yields
    dsimp only
    rw [List.append_nil, List.append_nil]
    rfl

/-- What a write that is accepted whole accepts. -/
theorem accepts_write {c : TCPConnection} {data : Bytes} (whole : (c.write data).2 = data.length) :
    c.accepts (.write data) = data := by
  unfold TCPConnection.accepts
  unfold TCPConnection.write at whole
  dsimp only
  split at whole
  next hnone =>
    rw [List.length_eq_zero_iff.mp hnone, List.take_nil]
  next =>
    rw [show (c.sender.stream.write data).2 = data.length from whole, List.take_length]

theorem readThread_ok (h : readThread answers s = .ok s') : ∃ threadData data ops,
    s.threadData.read s.tcp.remainingOutboundCapacity answers.data = .ok (threadData, data) ∧
      s'.adapter = s.adapter ∧ s'.handed = s.handed ∧ s'.threadData = threadData ∧
      Does s ops s' ∧ ∀ seg, .segmentReceived seg ∉ ops := by
  obtain ⟨⟨threadData, data⟩, hread, h⟩ := bind_ok h
  dsimp only at h
  split at h
  · cases h
  next hwhole =>
    obtain ⟨-, hthread⟩ := FileDescriptor.read_ok hread
    have hshadow : { s with tcp := (s.tcp.write data).1, threadData }.shadow =
        s.shadow.step (.write data) := by
      rw [shadow_step, accepts_write (not_not.mp hwhole), hthread]
      unfold TCPConnection.yields
      dsimp only
      rw [List.append_nil]
      rfl
    cases h
    refine ⟨threadData, data, ?_⟩
    split
    · refine ⟨[.write data, .endInputStream], hread, rfl, rfl, rfl, ⟨?_, Nat.le_refl 2, ?_⟩, fun seg => ?_⟩
      · rw [shadow_endOutbound, hshadow]
        rfl
      · exact (Bool.or_true _).symm
      · simp
    · refine ⟨[.write data], hread, rfl, rfl, rfl, ⟨hshadow, Nat.le_succ 1, ?_⟩, fun seg => ?_⟩
      · exact (Bool.or_false _).symm
      · simp

theorem writeThread_ok (h : writeThread answers s = .ok s') : ∃ n more,
    s'.adapter = s.adapter ∧ s'.handed = s.handed ∧ more ≠ 0 ∧
      s'.threadData.writeCount = s.threadData.writeCount + more ∧
      s'.threadData.eof = s.threadData.eof ∧ Does s [.read n] s' := by
  obtain ⟨⟨threadData, n⟩, hwrite, h⟩ := bind_ok h
  obtain ⟨hshort, hthread⟩ := FileDescriptor.writev_ok hwrite
  rw [ByteStream.peekOutput_eq] at hshort hthread
  rw [List.length_take] at hshort
  have htaken : (s.tcp.inboundStream.buf.take (min 65536 s.tcp.inboundStream.bufferSize)).take n =
      s.tcp.inboundStream.buf.take n := by
    rw [List.take_take, Nat.min_eq_left (by omega)]
  have hshadow (fd : FileDescriptor) (inboundShutdown : Bool) (received : fd.received = s.threadData.received)
      (delivered : fd.delivered = threadData.delivered) :
      { s with tcp := s.tcp.popInbound n, threadData := fd, inboundShutdown }.shadow =
        s.shadow.step (.read n) := by
    rw [shadow_step]
    unfold shadow TCPConnection.accepts TCPConnection.yields
    dsimp only
    rw [received, delivered, List.append_nil, ByteStream.peekOutput_eq, hthread, htaken]
    rfl
  dsimp only at h
  split at h
  · obtain ⟨closed, hclose, h⟩ := bind_ok h
    obtain ⟨-, -, hclosed⟩ := bind_ok hclose
    cases hclosed
    cases h
    refine ⟨n, 2, rfl, rfl, by decide, ?_, ?_, hshadow _ _ ?_ rfl, Nat.le_succ 1, (Bool.or_false _).symm⟩
    · rw [hthread]
      exact UInt32.add_assoc _ 1 1
    · rw [hthread]
      rfl
    · rw [hthread]
      rfl
  · cases h
    refine ⟨n, 1, rfl, rfl, by decide, ?_, ?_, hshadow _ _ ?_ rfl, Nat.le_succ 1, (Bool.or_false _).symm⟩
    · rw [hthread]
    · rw [hthread]
    · rw [hthread]

theorem writeDatagram_ok (h : writeDatagram answers s = .ok s') : ∃ adapter,
    writeSegments s.tcp.segmentsOut s.adapter answers.writes = .ok adapter ∧ s'.adapter = adapter ∧
      s'.handed = s.handed ++ s.tcp.segmentsOut ∧ s'.tcp.segmentsOut = [] ∧ s'.threadData = s.threadData ∧
      Does s [] s' := by
  obtain ⟨adapter, hwrite, h⟩ := bind_ok h
  cases h
  refine ⟨adapter, hwrite, rfl, rfl, rfl, rfl, ?_, Nat.zero_le _, (Bool.or_false _).symm⟩
  unfold shadow TCPConnection.behind
  dsimp only
  rw [List.append_nil]
  rfl

/-- **What a callback can do**: a few calls of the connection. The adapter reads or writes with it, or is left
alone; a segment is received only from what it reads. -/
theorem callback_cases (called : (rule r).callback answers s = .ok s') : ∃ ops, Does s ops s' ∧
    ((∃ seg, r = .readDatagram ∧
        FdAdapter.read s.adapter answers.packet (answers.writes 0) = .ok (s'.adapter, seg) ∧
        s'.handed = s.handed ∧ ops = seg.toList.map .segmentReceived) ∨
      (writeSegments s.tcp.segmentsOut s.adapter answers.writes = .ok s'.adapter ∧
        s'.handed = s.handed ++ s.tcp.segmentsOut ∧ ops = []) ∨
      (s'.adapter = s.adapter ∧ s'.handed = s.handed ∧ ∀ seg, .segmentReceived seg ∉ ops)) := by
  cases r with
  | readDatagram =>
    obtain ⟨adapter, seg, hread, rfl, hhanded, -, hdoes⟩ := readDatagram_ok called
    exact ⟨_, hdoes, .inl ⟨seg, rfl, hread, hhanded, rfl⟩⟩
  | readThread =>
    obtain ⟨threadData, data, ops, -, hadapter, hhanded, -, hdoes, hnone⟩ := readThread_ok called
    exact ⟨ops, hdoes, .inr (.inr ⟨hadapter, hhanded, hnone⟩)⟩
  | writeThread =>
    obtain ⟨n, more, hadapter, hhanded, -, -, -, hdoes⟩ := writeThread_ok called
    refine ⟨_, hdoes, .inr (.inr ⟨hadapter, hhanded, fun seg hseg => ?_⟩)⟩
    cases List.mem_singleton.mp hseg
  | writeDatagram =>
    obtain ⟨adapter, hwrite, rfl, hhanded, -, -, hdoes⟩ := writeDatagram_ok called
    exact ⟨[], hdoes, .inr (.inl ⟨hwrite, hhanded, rfl⟩)⟩

/-- What each write keeps, the loop over the queue keeps. -/
theorem writeSegments_keeps {Inv : α → List TCPSegment → Prop}
    (write : ∀ {a segs seg writes a'}, Inv a segs → seg.Small → FdAdapter.write a seg writes = .ok a' →
      Inv a' (segs ++ [seg]))
    {segs queue : List TCPSegment} {adapter adapter' : α} {writes : Nat → Nat → Answer Unit}
    (inv : Inv adapter segs) (small : ∀ seg ∈ queue, seg.Small)
    (h : writeSegments queue adapter writes = .ok adapter') : Inv adapter' (segs ++ queue) := by
  induction queue generalizing adapter segs writes with
  | nil =>
    cases h
    exact (List.append_nil segs).symm ▸ inv
  | cons seg queue ih =>
    obtain ⟨hhead, hrest⟩ := List.forall_mem_cons.mp small
    obtain ⟨written, hwrite, h⟩ := bind_ok h
    have hall := ih (write inv hhead hwrite) hrest h
    rw [List.append_assoc] at hall
    exact hall

/-! ## The turns of the loop -/

/-- What a turn can do: wait for an event, and then let time pass or not. -/
theorem turn_cases {c : List RuleName × TCPSpongeSocket α} {event : Event α} {more : Bool}
    {kept : List RuleName} (h : turn c event = .ok (more, kept, s')) : ∃ result waited,
      EventLoop.waitNextEvent rule c.1 c.2 event.poll = .ok (result, kept, waited) ∧
      (s' = waited ∨ ∃ adapter, FdAdapter.tick waited.adapter event.ms event.writes = .ok adapter ∧
        s' = { waited with tcp := waited.tcp.tick event.ms, adapter }) := by
  obtain ⟨⟨result, kept, waited⟩, hwait, h⟩ := bind_ok h
  dsimp only at h
  split at h
  · cases h
    exact ⟨result, s', hwait, .inl rfl⟩
  · split at h
    · obtain ⟨adapter, htick, h⟩ := bind_ok h
      cases h
      exact ⟨result, waited, hwait, .inr ⟨adapter, htick, rfl⟩⟩
    · cases h
      exact ⟨result, s', hwait, .inl rfl⟩

/-- The rules that are left and the socket after a turn; a turn that throws ends the thread. -/
def advance (c : List RuleName × TCPSpongeSocket α) (event : Event α) : List RuleName × TCPSpongeSocket α :=
  match turn c event with
  | .ok (_, next) => next
  | .error _ => c

def returns (c : List RuleName × TCPSpongeSocket α) (event : Event α) : Bool := (turn c event).isOk

/-- Some turns of the loops, of `connect` or `listen_and_accept` and then of the thread. -/
abbrev Running (s : TCPSpongeSocket α) (c : List RuleName × TCPSpongeSocket α) : Prop :=
  Runs.Reach advance (fun c event => returns c event = true) (rules, s) c

/-- A socket that has been told to connect or to listen. -/
def Starts (adapter : α) (s : TCPSpongeSocket α) : Prop :=
  ∃ cTcp cAd, connect adapter none cTcp cAd = .ok s ∨ listenAndAccept adapter none cTcp cAd = .ok s

theorem connect_ok (adapter : α) (cTcp : TCPConfig) (cAd : FdAdapterConfig) :
    connect adapter none cTcp cAd = .ok { tcp := (TCPConnection.new cTcp).connect
                                          adapter := FdAdapter.setConfig adapter cAd } := by
  have hstate := TCPConnection.state_connect cTcp
  unfold connect initializeTCP
  dsimp only
  generalize (TCPConnection.new cTcp).connect = tcp at *
  rw [if_neg (show ¬(none : Option TCPConnection).isSome = true from Bool.false_ne_true),
    if_neg (not_not.mpr hstate)]

theorem advance_eq {c : List RuleName × TCPSpongeSocket α} {event : Event α}
    (returned : returns c event = true) : ∃ more, turn c event = .ok (more, advance c event) := by
  unfold returns at returned
  unfold advance
  cases hturn : turn c event with
  | error e =>
    rw [hturn] at returned
    cases returned
  | ok out => exact ⟨out.1, rfl⟩

/-- The rule that reads from the owner is asked before the outbound stream has ended. -/
def Owed : RuleName → TCPSpongeSocket α → Prop
  | .readThread, s => s.outboundShutdown = false
  | _, _ => True

theorem asks_owed (asked : (rule r).interest s = true) : Owed r s := by
  cases r with
  | readDatagram => trivial
  | writeThread => trivial
  | writeDatagram => trivial
  | readThread =>
    have hopen := (Bool.and_eq_true_iff.mp (Bool.and_eq_true_iff.mp asked).1).2
    exact Bool.not_eq_true' _ |>.mp hopen

theorem owed_cancel {r' : RuleName} (other : r ≠ r') (owed : Owed r s) : Owed r ((rule r').cancel s) := by
  cases r with
  | readDatagram => trivial
  | writeThread => trivial
  | writeDatagram => trivial
  | readThread =>
    cases r' with
    | readThread => exact absurd rfl other
    | _ => exact owed

theorem owed_callback {r' : RuleName} (other : r ≠ r') (owed : Owed r s)
    (called : (rule r').callback answers s = .ok s') : Owed r s' := by
  cases r with
  | readDatagram => trivial
  | writeThread => trivial
  | writeDatagram => trivial
  | readThread =>
    cases r' with
    | readThread => exact absurd rfl other
    | readDatagram =>
      obtain ⟨adapter, seg, -, -, -, -, hdoes⟩ := readDatagram_ok called
      show s'.outboundShutdown = false
      rw [hdoes.shutdown, show s.outboundShutdown = false from owed]
      cases seg <;> rfl
    | writeThread =>
      obtain ⟨n, more, -, -, -, -, -, hdoes⟩ := writeThread_ok called
      exact hdoes.shutdown.trans ((Bool.or_false _).trans owed)
    | writeDatagram =>
      obtain ⟨adapter, -, -, -, -, -, hdoes⟩ := writeDatagram_ok called
      exact hdoes.shutdown.trans ((Bool.or_false _).trans owed)

/-! ## Whatever arrives -/

variable [LawfulFdAdapter α]

/-- What holds of a socket whatever comes from the network. -/
structure Steady (s : TCPSpongeSocket α) : Prop where
  tidy : s.shadow.conn.Tidy
  wrote : LawfulFdAdapter.Wrote s.adapter s.handed
  ended : s.tcp.sender.stream.isEnd = true → s.outboundShutdown = true

theorem Steady.does (h : s.Steady) {ops : List Op} (does : Does s ops s')
    (wrote : LawfulFdAdapter.Wrote s'.adapter s'.handed) : s'.Steady := by
  refine ⟨?_, wrote, fun ended => ?_⟩
  · rw [does.shadow]
    exact Endpoint.tidy_foldl h.tidy ops
  · have hended : (ops.foldl Endpoint.step s.shadow).conn.sender.stream.isEnd = true := by
      rw [← does.shadow]
      exact ended
    rw [does.shutdown, Bool.or_eq_true]
    exact (Endpoint.isEnd_foldl h.tidy hended).imp_left h.ended

theorem Steady.cancel (h : s.Steady) (r : RuleName) : ((rule r).cancel s).Steady := by
  obtain ⟨ops, hdoes, -⟩ := cancel_does r s
  refine h.does hdoes ?_
  cases r <;> exact h.wrote

theorem Steady.small (h : s.Steady) : ∀ seg ∈ s.tcp.segmentsOut, seg.Small :=
  fun seg hseg => (h.tidy.sent seg (List.mem_append_right _ hseg)).1

theorem writeSegments_error {segs queue : List TCPSegment} {adapter : α}
    {writes : Nat → Nat → Answer Unit} {e : Failure} (wrote : LawfulFdAdapter.Wrote adapter segs)
    (small : ∀ seg ∈ queue, seg.Small) (h : writeSegments queue adapter writes = .error e) : e.OfKernel := by
  induction queue generalizing adapter segs writes with
  | nil => cases h
  | cons seg queue ih =>
    obtain ⟨hhead, hrest⟩ := List.forall_mem_cons.mp small
    rcases bind_error h with hwrite | ⟨written, hwrite, h⟩
    · exact LawfulFdAdapter.write_error wrote hhead hwrite
    · exact ih (LawfulFdAdapter.write_ok wrote hhead hwrite).1 hrest h

/-- Every callback keeps what the adapter has written in step with what was handed to it. -/
theorem Steady.callback (h : s.Steady) (called : (rule r).callback answers s = .ok s') : s'.Steady := by
  obtain ⟨ops, hdoes, ⟨seg, -, hread, hhanded, -⟩ | ⟨hwrite, hhanded, -⟩ | ⟨hadapter, hhanded, -⟩⟩ :=
    callback_cases called
  · exact h.does hdoes (hhanded ▸ (LawfulFdAdapter.read_ok h.wrote hread).1)
  · refine h.does hdoes (hhanded ▸ writeSegments_keeps ?_ h.wrote h.small hwrite)
    exact fun wrote small written => (LawfulFdAdapter.write_ok wrote small written).1
  · refine h.does hdoes ?_
    rw [hadapter, hhanded]
    exact h.wrote

/-- Every callback reads or writes the descriptor of its rule, or leaves it nothing to do. -/
theorem Steady.busy (h : s.Steady) (called : (rule r).callback answers s = .ok s') :
    (rule r).serviceCount s ≠ (rule r).serviceCount s' ∨ (rule r).interest s' = false := by
  cases r with
  | readDatagram =>
    obtain ⟨adapter, seg, hread, rfl, -⟩ := readDatagram_ok called
    obtain ⟨-, -, hcount⟩ := LawfulFdAdapter.read_ok h.wrote hread
    left
    show (FdAdapter.fd s.adapter).readCount ≠ (FdAdapter.fd s'.adapter).readCount
    rw [hcount]
    exact FileDescriptor.count_ne_add (by decide)
  | readThread =>
    obtain ⟨threadData, data, ops, hread, -, -, rfl, -⟩ := readThread_ok called
    obtain ⟨-, hthread⟩ := FileDescriptor.read_ok hread
    left
    show s.threadData.readCount ≠ s'.threadData.readCount
    rw [hthread]
    exact FileDescriptor.count_ne_add (by decide)
  | writeThread =>
    obtain ⟨n, more, -, -, hmore, hcount, -⟩ := writeThread_ok called
    left
    show s.threadData.writeCount ≠ s'.threadData.writeCount
    rw [hcount]
    exact FileDescriptor.count_ne_add hmore
  | writeDatagram =>
    obtain ⟨adapter, -, -, -, hempty, -⟩ := writeDatagram_ok called
    right
    show (!s'.tcp.segmentsOut.isEmpty) = false
    rw [hempty]
    rfl

/-- A read within the capacity of a stream that has not ended is accepted whole. -/
theorem Steady.write_whole (h : s.Steady) (owed : s.outboundShutdown = false) {data : Bytes}
    (fits : data.length ≤ s.tcp.remainingOutboundCapacity) : (s.tcp.write data).2 = data.length := by
  have hopen : s.tcp.sender.stream.isEnd = false := by
    refine eq_false_of_ne_true fun hended => ?_
    rw [h.ended hended] at owed
    cases owed
  unfold TCPConnection.write
  split
  next hnone => exact hnone.symm
  next =>
    show (s.tcp.sender.stream.write data).2 = data.length
    rw [ByteStream.write_snd _ hopen]
    exact Nat.min_eq_left fits

/-- A callback fails only where the kernel does. -/
theorem Steady.callback_error (h : s.Steady) (owed : Owed r s) {e : Failure}
    (failed : (rule r).callback answers s = .error e) : e.OfKernel := by
  cases r with
  | readDatagram =>
    rcases bind_error failed with hread | ⟨⟨adapter, seg⟩, -, failed⟩
    · exact LawfulFdAdapter.read_error h.wrote hread
    · cases seg <;> cases failed
  | readThread =>
    rcases bind_error failed with hread | ⟨⟨threadData, data⟩, hread, failed⟩
    · exact FileDescriptor.read_error hread
    · have hwhole := h.write_whole owed (FileDescriptor.read_ok hread).1
      dsimp only at failed
      rw [if_neg (not_not.mpr hwhole)] at failed
      cases failed
  | writeThread =>
    rcases bind_error failed with hwrite | ⟨⟨threadData, n⟩, -, failed⟩
    · exact FileDescriptor.writev_error hwrite
    · dsimp only at failed
      split at failed
      · rcases bind_error failed with hclose | ⟨closed, -, failed⟩
        · exact FileDescriptor.shutdown_error hclose
        · cases failed
      · cases failed
  | writeDatagram =>
    rcases bind_error failed with hwrite | ⟨adapter, -, failed⟩
    · exact writeSegments_error h.wrote h.small hwrite
    · cases failed

/-- **The four rules keep a socket steady**, whatever the kernel answers. -/
theorem upholds : Upholds (rule (α := α)) (.any RuleName (Answers α)) (fun _ _ => Steady) Owed where
  spare := id
  cancel := fun _ hsteady => hsteady.cancel _
  asks := fun _ _ _ hasked => asks_owed hasked
  owedCancel := owed_cancel
  owedCallback := fun hne _ howed _ hcalled => owed_callback hne howed hcalled
  callback := fun _ hsteady _ _ hcalled => hsteady.callback hcalled
  busy := fun _ hsteady _ _ hcalled => hsteady.busy hcalled

/-! ## The life of a thread -/

theorem Steady.turn {c : List RuleName × TCPSpongeSocket α} (h : c.2.Steady) (nodup : c.1.Nodup)
    {event : Event α} {more : Bool} {kept : List RuleName} (turned : turn c event = .ok (more, kept, s')) :
    s'.Steady ∧ kept.Sublist c.1 := by
  obtain ⟨result, waited, hwait, hticked⟩ := turn_cases turned
  obtain ⟨hsteady, hsub⟩ := upholds.wait (n := 0) nodup h (Kernel.any_polls event.poll) hwait
  refine ⟨?_, hsub⟩
  rcases hticked with rfl | ⟨adapter, htick, rfl⟩
  · exact hsteady
  · exact hsteady.does (does_tick waited adapter event.ms) (LawfulFdAdapter.tick_ok hsteady.wrote htick).1

theorem Steady.turn_error {c : List RuleName × TCPSpongeSocket α} (h : c.2.Steady) (nodup : c.1.Nodup)
    {event : Event α} {e : Failure} (failed : TCPSpongeSocket.turn c event = .error e) :
    e = EventLoop.pollError ∨ e.OfKernel := by
  rcases bind_error failed with hwait | ⟨⟨result, kept, waited⟩, hwait, failed⟩
  · refine (upholds.wait_error (n := 0) nodup h (Kernel.any_polls event.poll) hwait).imp_right ?_
    rintro ⟨_, _, _, _, _, -, hsteady, howed, -, hcallback⟩
    exact hsteady.callback_error howed hcallback
  · obtain ⟨hsteady, -⟩ := upholds.wait (n := 0) nodup h (Kernel.any_polls event.poll) hwait
    dsimp only at failed
    split at failed
    · cases failed
    · split at failed
      · rcases bind_error failed with htick | ⟨adapter, -, failed⟩
        · exact .inr (LawfulFdAdapter.tick_error hsteady.wrote htick)
        · cases failed
      · cases failed

theorem Starts.steady {adapter : α} (fresh : LawfulFdAdapter.Wrote adapter []) (starts : Starts adapter s) :
    s.Steady := by
  obtain ⟨cTcp, cAd, hconnect | hlisten⟩ := starts
  · rw [connect_ok] at hconnect
    have htidy : (TCPConnection.new cTcp).connect.Tidy := (TCPConnection.tidy_new cTcp).step .connect
    have hopen : (TCPConnection.new cTcp).connect.sender.stream.isEnd = true → False := fun hended =>
      ((TCPConnection.ready_new cTcp).step_isEnd .connect hended).elim (absurd · Bool.false_ne_true)
        (absurd · Bool.false_ne_true)
    generalize (TCPConnection.new cTcp).connect = tcp at *
    cases hconnect
    exact ⟨htidy, LawfulFdAdapter.configured cAd fresh, fun hended => (hopen hended).elim⟩
  · cases hlisten
    exact ⟨TCPConnection.tidy_new cTcp, LawfulFdAdapter.listening true (LawfulFdAdapter.configured cAd fresh),
      fun hc => absurd hc Bool.false_ne_true⟩

theorem Running.steady (start : s.Steady) {c : List RuleName × TCPSpongeSocket α} (run : Running s c) :
    c.2.Steady ∧ c.1.Sublist rules := by
  refine run.invariant (fun c => c.2.Steady ∧ c.1.Sublist rules) ⟨start, .refl rules⟩ ?_
  intro c event hc hreturned
  obtain ⟨more, hturn⟩ := advance_eq hreturned
  obtain ⟨hsteady, hsub⟩ := hc.1.turn (hc.2.nodup (by decide)) hturn
  exact ⟨hsteady, hsub.trans hc.2⟩

/-- **The thread fails only where the kernel does.** Whatever packets arrive and in whatever order
descriptors get ready, a turn of the loop throws only when `poll` reports an error or a system call goes
wrong: never for what a packet holds, for a segment that cannot be written, for a write that is not
accepted, or for a busy wait. And `connect` finds the state it expects. -/
theorem thread_blameless {adapter : α} (fresh : LawfulFdAdapter.Wrote adapter []) :
    (∀ cTcp cAd, (connect adapter none cTcp cAd).isOk = true) ∧
      ∀ s, Starts adapter s → ∀ c, Running s c → ∀ event e, turn c event = .error e →
        e = EventLoop.pollError ∨ e.OfKernel := by
  refine ⟨fun cTcp cAd => ?_, fun s starts c run event e failed => ?_⟩
  · rw [connect_ok]
    rfl
  · obtain ⟨hsteady, hsub⟩ := run.steady (starts.steady fresh)
    exact hsteady.turn_error (hsub.nodup (by decide)) failed

/-- A packet that is no datagram is read and dropped; then the device fails, and the thread with it. -/
theorem thread_blameless_device :
    let adapter : TCPOverIPv4OverTunFdAdapter := {}
    let packet (answer : Answer Bytes) : Event TCPOverIPv4OverTunFdAdapter :=
      { poll := .ready fun | .readDatagram => { ready := some { packet := answer } } | _ => {} }
    let s : TCPSpongeSocket TCPOverIPv4OverTunFdAdapter :=
      { tcp := (TCPConnection.new {}).connect, adapter := FdAdapter.setConfig adapter {} }
    let c := [packet (.ok [1, 2, 3])].foldl advance (rules, s)
    (turn c (packet (.error 5))).isOk = false ∧
      ∀ e, turn c (packet (.error 5)) = .error e → e = EventLoop.pollError ∨ e.OfKernel := by
  intro adapter packet s c
  have fresh : LawfulFdAdapter.Wrote adapter [] := fun _ hsent => absurd hsent List.not_mem_nil
  have run : Running s c := Runs.reach_foldl .start (by decide +kernel)
  exact ⟨by decide +kernel,
    (thread_blameless fresh).2 s ⟨{}, {}, .inl (connect_ok adapter {} {})⟩ c run (packet (.error 5))⟩

/-! ## The end of the loop -/

theorem Steady.ready (h : s.Steady) : s.tcp.Ready :=
  ⟨⟨h.tidy.ready.sound.marked, h.tidy.ready.sound.numbered, h.tidy.ready.sound.acked,
    h.tidy.ready.sound.settled⟩, h.tidy.ready.empty⟩

/-- Only one rule does anything when it is cancelled, and that does not wake a connection that is over. -/
theorem rules_calm : (rules.Pairwise (EventLoop.Calm (rule (α := α)) Steady)) := by
  have hidle (r : RuleName) : EventLoop.Calm (rule (α := α)) Steady r .writeThread ∧
      EventLoop.Calm (rule (α := α)) Steady r .writeDatagram :=
    ⟨fun _ _ hquiet => hquiet, fun _ _ hquiet => hquiet⟩
  have hover : EventLoop.Calm (rule (α := α)) Steady .readDatagram .readThread :=
    fun s hsteady hquiet => hsteady.ready.endInputStream_over hquiet
  simp only [rules, List.pairwise_cons, List.mem_cons, List.not_mem_nil, or_false, forall_eq_or_imp,
    forall_eq, IsEmpty.forall_iff, implies_true, List.Pairwise.nil, and_true]
  exact ⟨⟨hover, (hidle _).1, (hidle _).2⟩, ⟨(hidle _).1, (hidle _).2⟩, (hidle _).2⟩

/-- **The loop ends when there is nothing more to do.** If it ends and was not interrupted, then for each
rule that is left its work is done: the connection is over, what it queued is handed to the adapter, and the
owner has every byte of the inbound stream, and the end if the stream has ended or failed. Bytes that are
assembled and not yet written to that stream are not among them. -/
theorem loop_done {adapter : α} (fresh : LawfulFdAdapter.Wrote adapter []) (starts : Starts adapter s)
    {c : List RuleName × TCPSpongeSocket α} (run : Running s c)
    {poll : EventLoop.Poll RuleName (Answers α)} {kept : List RuleName}
    (exits : EventLoop.waitNextEvent rule c.1 c.2 poll = .ok (.exit, kept, s')) :
    poll = .interrupted ∨
      (.readDatagram ∈ kept → s'.tcp.active = false) ∧
      (.writeDatagram ∈ kept → s'.tcp.segmentsOut = []) ∧
      (.writeThread ∈ kept → s'.tcp.inboundStream.buf = [] ∧
        (s'.tcp.inboundStream.isEnd = true ∨ s'.tcp.inboundStream.error = true →
          s'.inboundShutdown = true)) := by
  obtain ⟨hsteady, hsub⟩ := run.steady (starts.steady fresh)
  have hexit := EventLoop.wait_exit (fun r s h => Steady.cancel h r) (rules_calm.sublist hsub) hsteady exits
  refine hexit.imp_right fun hquiet => ⟨hquiet .readDatagram, fun hkept => ?_, fun hkept => ?_⟩
  · have hempty : (!s'.tcp.segmentsOut.isEmpty) = false := hquiet .writeDatagram hkept
    simpa using hempty
  · have hidle : (!s'.tcp.inboundStream.bufferEmpty || (s'.tcp.inboundStream.eof ||
        s'.tcp.inboundStream.error) && !s'.inboundShutdown) = false := hquiet .writeThread hkept
    unfold ByteStream.bufferEmpty ByteStream.eof at hidle
    cases hbuf : s'.tcp.inboundStream.buf with
    | cons head rest => simp [hbuf] at hidle
    | nil =>
      refine ⟨rfl, fun hover => ?_⟩
      rw [hbuf] at hidle
      cases hshut : s'.inboundShutdown with
      | true => rfl
      | false =>
        rcases hover with hend | herror
        · simp [hshut, hend] at hidle
        · simp [hshut, herror] at hidle

/-- The peer resets the connection, the owner is told, the SYN leaves at last, and the loop ends. -/
theorem loop_done_reset :
    let rst : Bytes := [0, 0, 0, 0, 0, 0, 0, 0, 0, 0, 0, 1, 80, 20, 0, 0, 175, 234, 0, 0]
    let ready : EventLoop.Revents (Answers TCPOverUDPSocketAdapter) :=
      { ready := some { packet := .ok ({}, rst) } }
    let s : TCPSpongeSocket TCPOverUDPSocketAdapter :=
      { tcp := (TCPConnection.new {}).connect, adapter := FdAdapter.setConfig {} {} }
    let c := [{ poll := .ready fun r => if r = .readDatagram then ready else {} },
      { poll := .ready fun _ => ready }].foldl advance (rules, s)
    ∃ s', EventLoop.waitNextEvent rule c.1 c.2 .timeout = .ok (.exit, rules, s') ∧
      s'.tcp.active = false ∧ s'.tcp.segmentsOut = [] ∧ s'.tcp.inboundStream.buf = [] ∧
      (s'.tcp.inboundStream.isEnd = true ∨ s'.tcp.inboundStream.error = true →
        s'.inboundShutdown = true) := by
  intro rst ready s c
  have fresh : LawfulFdAdapter.Wrote ({} : TCPOverUDPSocketAdapter) [] :=
    fun _ hsent => absurd hsent List.not_mem_nil
  have starts : Starts ({} : TCPOverUDPSocketAdapter) s := ⟨{}, {}, .inl (connect_ok _ _ _)⟩
  have run : Running s c := Runs.reach_foldl .start (by decide +kernel)
  have hwaited : (match EventLoop.waitNextEvent rule c.1 c.2 .timeout with
      | .ok (result, kept, _) => decide (result = .exit ∧ kept = rules)
      | .error _ => false) = true := by decide +kernel
  cases hwait : EventLoop.waitNextEvent rule c.1 c.2 .timeout with
  | error e =>
    rw [hwait] at hwaited
    cases hwaited
  | ok out =>
    rw [hwait] at hwaited
    obtain ⟨result, kept, s'⟩ := out
    obtain ⟨rfl, rfl⟩ := of_decide_eq_true hwaited
    have hdone := loop_done fresh starts run hwait
    obtain ⟨hover, hhanded, hgiven⟩ := hdone.resolve_left fun hc => by cases hc
    obtain ⟨hbuf, hshut⟩ := hgiven (by decide)
    exact ⟨s', rfl, hover (by decide), hhanded (by decide), hbuf, hshut⟩

/-- **The destructor resets nobody.** A socket that is destroyed while its connection is open makes a RST
segment, and the RST stays in the queue of the connection that is destroyed: nothing that such a socket has
handed to the adapter is a reset. -/
theorem destructor_resets_nobody {adapter : α} (fresh : LawfulFdAdapter.Wrote adapter [])
    (starts : Starts adapter s) {c : List RuleName × TCPSpongeSocket α} (run : Running s c)
    (isOpen : c.2.tcp.active = true) :
    TCPConnection.rstSegment ∈ c.2.finish.tcp.segmentsOut ∧
      ∀ seg ∈ c.2.finish.handed, seg.header.rst = false := by
  obtain ⟨hsteady, -⟩ := run.steady (starts.steady fresh)
  refine ⟨?_, fun seg hseg => ?_⟩
  · unfold finish TCPConnection.destroy
    rw [if_pos isOpen]
    exact List.mem_append_right _ (List.mem_singleton_self _)
  · obtain ⟨-, hreset⟩ := hsteady.tidy.sent seg (List.mem_append_left _ hseg)
    refine eq_false_of_ne_true fun hrst => ?_
    have hover := (TCPConnection.active_eq_false_iff c.2.tcp).mpr (.inl (hreset hrst))
    rw [isOpen] at hover
    cases hover

/-- The SYN is sent, and then the owner gives up. -/
theorem destructor_resets_nobody_syn :
    let s : TCPSpongeSocket TCPOverUDPSocketAdapter :=
      { tcp := (TCPConnection.new {}).connect, adapter := FdAdapter.setConfig {} {} }
    let c := [{ poll := .ready fun r => if r = .writeDatagram then { ready := some {} } else {} }].foldl
      advance (rules, s)
    c.2.handed.length = 1 ∧ TCPConnection.rstSegment ∈ c.2.finish.tcp.segmentsOut ∧
      ∀ seg ∈ c.2.finish.handed, seg.header.rst = false := by
  intro s c
  have fresh : LawfulFdAdapter.Wrote ({} : TCPOverUDPSocketAdapter) [] :=
    fun _ hsent => absurd hsent List.not_mem_nil
  have starts : Starts ({} : TCPOverUDPSocketAdapter) s := ⟨{}, {}, .inl (connect_ok _ _ _)⟩
  have run : Running s c := Runs.reach_foldl .start (by decide +kernel)
  exact ⟨by decide +kernel,
    destructor_resets_nobody fresh starts run (by decide +kernel)⟩

end TCPSpongeSocket

end Sponge
