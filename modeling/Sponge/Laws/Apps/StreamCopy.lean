import Sponge.Apps.StreamCopy
import Sponge.Laws.Util.EventLoop

/-!
# Laws.Apps.StreamCopy — nothing is lost on the way

Each way of `bidirectional_stream_copy` is a lane: a descriptor that is read, a stream, and a descriptor
that is written. `Lane` says what holds of it as long as both rules stand and after one of them is
cancelled. As long as the writing rule stands, what was read is what was written and what is buffered.
When the descriptor it writes to hangs up, the rule is cancelled and ends the stream, and from then on the
reading rule goes on reading and every byte of it is dropped: this is why the general law has a prefix
(`copy_faithful`) and equality is only had of a shutdown.

The loop ends by itself only when each way is through: its end was passed on behind the last byte, or its
writing rule was cancelled (`copy_complete`). It never finds a busy wait.
-/

namespace Sponge

namespace StreamCopy

open EventLoop (Rule Upholds)

variable {R W R' W' : Prop} {eof : Bool} {received delivered data : Bytes} {stream stream' : ByteStream}
  {fd fd' : FileDescriptor} {shutdown : Bool} {answers : Answers} {s s' : State} {r r' : RuleName}

/-- One way: whether its reading and its writing rule stand, whether the descriptor it reads is at its end,
what was read, what was written, the stream, and whether the end was passed on. -/
structure Lane (R W : Prop) (eof : Bool) (received delivered : Bytes) (stream : ByteStream)
    (shutdown : Bool) : Prop where
  cap : stream.cap = bufferSize
  sane : stream.error = false
  carried : delivered ++ stream.buf <+: received
  whole : W → delivered ++ stream.buf = received
  ended : W → stream.isEnd = true → eof = true ∨ ¬R
  closes : ¬R ∨ ¬W → stream.isEnd = true
  passed : shutdown = true → stream.isEnd = true ∧ delivered = received ∧ (eof = true ∨ ¬R)

theorem lane_new : Lane True True false [] [] (.new bufferSize) false where
  cap := rfl
  sane := rfl
  carried := List.prefix_rfl
  whole := fun _ => rfl
  ended := fun _ hc => absurd hc Bool.false_ne_true
  closes := fun hc => absurd hc (by simp)
  passed := fun hc => absurd hc Bool.false_ne_true

theorem Lane.congr (h : Lane R W eof received delivered stream shutdown) (reading : R' ↔ R)
    (writing : W' ↔ W) :
    Lane R' W' eof received delivered stream shutdown := by
  rwa [propext reading, propext writing]

/-- The reading rule is cancelled. -/
theorem Lane.cancelReader (h : Lane R W eof received delivered stream shutdown) (gone : ¬R') :
    Lane R' W eof received delivered stream.endInput shutdown :=
  ⟨h.cap, h.sane, h.carried, h.whole, fun _ _ => .inr gone, fun _ => rfl, fun hshut =>
    ⟨rfl, (h.passed hshut).2.1, .inr gone⟩⟩

/-- The writing rule is cancelled. -/
theorem Lane.cancelWriter (h : Lane R W eof received delivered stream shutdown) (gone : ¬W') :
    Lane R W' eof received delivered stream.endInput shutdown :=
  ⟨h.cap, h.sane, h.carried, fun hw => absurd hw gone, fun hw => absurd hw gone, fun _ => rfl, fun hshut =>
    ⟨rfl, (h.passed hshut).2⟩⟩

theorem Lane.buf_of_passed (h : Lane R W eof received delivered stream shutdown) (hshut : shutdown = true) :
    stream.buf = [] := by
  have hprefix := h.carried
  rw [← (h.passed hshut).2.1] at hprefix
  have hlength := hprefix.length_le
  rw [List.length_append] at hlength
  exact List.length_eq_zero_iff.mp (by omega)

/-! ## The callbacks -/

theorem fill_ok (h : fill stream fd answers = .ok (stream', fd')) : ∃ data,
    data.length ≤ stream.remainingCapacity ∧
      fd' = { fd with
        eof := fd.eof || decide (0 < stream.remainingCapacity) && data.isEmpty
        readCount := fd.readCount + 1
        received := fd.received ++ data } ∧
      stream' = if fd'.eof then (stream.write data).1.endInput else (stream.write data).1 := by
  obtain ⟨⟨read, data⟩, hread, h⟩ := bind_ok h
  cases h
  obtain ⟨hshort, heq⟩ := FileDescriptor.read_ok hread
  exact ⟨data, hshort, heq, rfl⟩

theorem drain_ok (h : drain stream fd answers = .ok (stream', fd')) : ∃ n,
    fd' = { fd with
        writeCount := fd.writeCount + 1
        delivered := fd.delivered ++ stream.buf.take n
        packets := fd.packets ++ [stream.buf.take n] } ∧
      stream' = stream.popOutput n := by
  obtain ⟨⟨written, n⟩, hwrite, h⟩ := bind_ok h
  cases h
  obtain ⟨hshort, heq⟩ := FileDescriptor.writev_ok hwrite
  rw [ByteStream.peekOutput_eq] at hshort heq
  rw [List.length_take] at hshort
  rw [List.take_take, Nat.min_eq_left (by omega)] at heq
  exact ⟨n, heq, rfl⟩

/-- What a stream that has not ended is given, up to its room, it takes. -/
theorem write_room (h : stream.isEnd = false) (fits : data.length ≤ stream.remainingCapacity) :
    (stream.write data).1.buf = stream.buf ++ data := by
  unfold ByteStream.remainingCapacity at fits
  rw [ByteStream.write_buf _ h, List.take_of_length_le fits]

/-- A reading rule keeps its lane: it reads before the end, so that a shutdown has not come yet. -/
theorem Lane.fill (h : Lane R W fd.eof fd.received delivered stream shutdown) (here : R)
    (more : fd.eof = false)
    (filled : fill stream fd answers = .ok (stream', fd')) :
    Lane R W fd'.eof fd'.received delivered stream' shutdown := by
  obtain ⟨data, hfits, hfd, hstream⟩ := fill_ok filled
  have hopen : shutdown = false := eq_false_of_ne_true fun hc => by
    rcases (h.passed hc).2.2 with heof | hgone
    · exact absurd (more.symm.trans heof) Bool.false_ne_true
    · exact hgone here
  have hreceived : fd'.received = fd.received ++ data := by rw [hfd]
  -- the stream with its marks apart: what it holds, and whether it has ended
  have hbuf : stream'.buf = (stream.write data).1.buf := by
    rw [hstream]
    split <;> rfl
  have hend : stream'.isEnd = true → stream.isEnd = true ∨ fd'.eof = true := by
    rw [hstream]
    split
    next heof => exact fun _ => .inr heof
    next => rw [ByteStream.write_isEnd]; exact .inl
  have hstays : stream.isEnd = true → stream'.isEnd = true := by
    intro hc
    rw [hstream]
    split
    · rfl
    · rwa [ByteStream.write_isEnd]
  have hwhole : W → delivered ++ stream'.buf = fd'.received := by
    intro hw
    have hlive : stream.isEnd = false := eq_false_of_ne_true fun hc => by
      rcases h.ended hw hc with heof | hgone
      · exact absurd (more.symm.trans heof) Bool.false_ne_true
      · exact hgone here
    rw [hbuf, write_room hlive hfits, hreceived, ← h.whole hw, List.append_assoc]
  refine ⟨?_, ?_, ?_, hwhole, fun hw hc => ?_, fun hc => hstays (h.closes hc), fun hc => ?_⟩
  · rw [hstream, ← h.cap]
    split <;> exact ByteStream.write_cap _ _
  · rw [hstream, ← h.sane]
    split <;> exact ByteStream.write_error _ _
  · by_cases hw : W
    · exact ⟨[], by rw [List.append_nil]; exact hwhole hw⟩
    · rw [hbuf, ByteStream.write_of_end _ (h.closes (.inr hw)), hreceived]
      exact h.carried.trans (List.prefix_append _ _)
  · rcases hend hc with hold | heof
    · exact (h.ended hw hold).imp_left fun hc => absurd (more.symm.trans hc) Bool.false_ne_true
    · exact .inl heof
  · exact absurd (hopen.symm.trans hc) Bool.false_ne_true

/-- A writing rule keeps its lane, and when it finds the end it has passed everything on. -/
theorem Lane.drain (h : Lane R W eof received fd.delivered stream shutdown) (here : W)
    (drained : drain stream fd answers = .ok (stream', fd')) :
    Lane R W eof received fd'.delivered stream' shutdown ∧
      (stream'.eof = true → Lane R W eof received fd'.delivered stream' true) := by
  obtain ⟨n, hfd, rfl⟩ := drain_ok drained
  have hmoved : fd'.delivered ++ (stream.popOutput n).buf = fd.delivered ++ stream.buf := by
    rw [hfd, ByteStream.popOutput_buf, List.append_assoc, List.take_append_drop]
  have hlane : Lane R W eof received fd'.delivered (stream.popOutput n) shutdown := by
    refine ⟨h.cap, h.sane, hmoved ▸ h.carried, fun hw => hmoved.trans (h.whole hw), h.ended, h.closes,
      fun hshut => ?_⟩
    have hnone := h.buf_of_passed hshut
    rw [hfd, hnone, List.take_nil, List.append_nil]
    exact h.passed hshut
  refine ⟨hlane, fun heof => ⟨hlane.cap, hlane.sane, hlane.carried, hlane.whole, hlane.ended, hlane.closes,
    fun _ => ?_⟩⟩
  obtain ⟨hempty, hend⟩ : (stream.popOutput n).buf = [] ∧ (stream.popOutput n).isEnd = true := by
    simpa [ByteStream.eof] using heof
  have hall := hlane.whole here
  rw [hempty, List.append_nil] at hall
  exact ⟨hend, hall, hlane.ended here hend⟩

/-! ## The rules -/

/-- Both ways. -/
structure Carried (rules : List RuleName) (s : State) : Prop where
  nodup : rules.Nodup
  out : Lane (.readInput ∈ rules) (.writeSocket ∈ rules) s.input.eof s.input.received s.socket.delivered
    s.outbound s.outboundShutdown
  into : Lane (.readSocket ∈ rules) (.writeOutput ∈ rules) s.socket.eof s.socket.received s.output.delivered
    s.inbound s.inboundShutdown

theorem carried_new : Carried rules {} where
  nodup := by decide
  out := lane_new.congr (by decide) (by decide)
  into := lane_new.congr (by decide) (by decide)

/-- A reading rule is asked before the end of its descriptor. -/
def Owed : RuleName → State → Prop
  | .readInput, s => s.input.eof = false
  | .readSocket, s => s.socket.eof = false
  | .writeSocket, _ => True
  | .writeOutput, _ => True

theorem mem_drop {pre post : List RuleName} (h : r ≠ r') : r ∈ pre ++ post ↔ r ∈ pre ++ r' :: post := by
  simp [h]

theorem Carried.cancel {pre post : List RuleName} (h : Carried (pre ++ r :: post) s) :
    Carried (pre ++ post) ((rule r).cancel s) := by
  have hnodup := h.nodup.sublist ((List.sublist_cons_self r post).append_left pre)
  have hgone : r ∉ pre ++ post := (List.nodup_middle.mp h.nodup |> List.nodup_cons.mp).1
  cases r with
  | readInput =>
    exact ⟨hnodup, (h.out.cancelReader hgone).congr .rfl (mem_drop (by decide)),
      h.into.congr (mem_drop (by decide)) (mem_drop (by decide))⟩
  | writeSocket =>
    exact ⟨hnodup, (h.out.cancelWriter hgone).congr (mem_drop (by decide)) .rfl,
      h.into.congr (mem_drop (by decide)) (mem_drop (by decide))⟩
  | readSocket =>
    exact ⟨hnodup, h.out.congr (mem_drop (by decide)) (mem_drop (by decide)),
      (h.into.cancelReader hgone).congr .rfl (mem_drop (by decide))⟩
  | writeOutput =>
    exact ⟨hnodup, h.out.congr (mem_drop (by decide)) (mem_drop (by decide)),
      (h.into.cancelWriter hgone).congr (mem_drop (by decide)) .rfl⟩

theorem readInput_ok (h : readInput answers s = .ok s') : ∃ outbound input,
    fill s.outbound s.input answers = .ok (outbound, input) ∧ s' = { s with outbound, input } := by
  obtain ⟨filled, hfill, h⟩ := bind_ok h
  cases h
  exact ⟨_, _, hfill, rfl⟩

theorem readSocket_ok (h : readSocket answers s = .ok s') : ∃ inbound socket,
    fill s.inbound s.socket answers = .ok (inbound, socket) ∧ s' = { s with inbound, socket } := by
  obtain ⟨filled, hfill, h⟩ := bind_ok h
  cases h
  exact ⟨_, _, hfill, rfl⟩

theorem writeSocket_ok (h : writeSocket answers s = .ok s') : ∃ outbound socket,
    drain s.outbound s.socket answers = .ok (outbound, socket) ∧
      (s' = { s with outbound, socket } ∨ outbound.eof = true ∧
        s' = { s with outbound, socket := socket.registerWrite, outboundShutdown := true }) := by
  obtain ⟨⟨stream, fd⟩, hdrain, h⟩ := bind_ok h
  refine ⟨stream, fd, hdrain, ?_⟩
  dsimp only at h
  split at h
  next heof =>
    obtain ⟨closed, hclose, h⟩ := bind_ok h
    obtain ⟨-, -, hclosed⟩ := bind_ok hclose
    cases hclosed
    cases h
    exact .inr ⟨heof, rfl⟩
  next =>
    cases h
    exact .inl rfl

theorem writeOutput_ok (h : writeOutput answers s = .ok s') : ∃ inbound output,
    drain s.inbound s.output answers = .ok (inbound, output) ∧
      (s' = { s with inbound, output } ∨ inbound.eof = true ∧
        s' = { s with
          inbound, output := { output with eof := true, closed := true }, inboundShutdown := true }) := by
  obtain ⟨⟨stream, fd⟩, hdrain, h⟩ := bind_ok h
  refine ⟨stream, fd, hdrain, ?_⟩
  dsimp only at h
  split at h
  next heof =>
    obtain ⟨closed, hclose, h⟩ := bind_ok h
    obtain ⟨-, -, hclosed⟩ := bind_ok hclose
    cases hclosed
    cases h
    exact .inr ⟨heof, rfl⟩
  next =>
    cases h
    exact .inl rfl

/-- What a rule is owed, no other rule takes away. -/
theorem owed_callback (other : r ≠ r') (owed : Owed r s) (called : (rule r').callback answers s = .ok s') :
    Owed r s' := by
  cases r with
  | writeSocket => trivial
  | writeOutput => trivial
  | readInput =>
    cases r' with
    | readInput => exact absurd rfl other
    | writeSocket =>
      obtain ⟨outbound, socket, -, rfl | ⟨-, rfl⟩⟩ := writeSocket_ok called
      · exact owed
      · exact owed
    | readSocket =>
      obtain ⟨inbound, socket, -, rfl⟩ := readSocket_ok called
      exact owed
    | writeOutput =>
      obtain ⟨inbound, output, -, rfl | ⟨-, rfl⟩⟩ := writeOutput_ok called
      · exact owed
      · exact owed
  | readSocket =>
    cases r' with
    | readInput =>
      obtain ⟨outbound, input, -, rfl⟩ := readInput_ok called
      exact owed
    | writeSocket =>
      obtain ⟨outbound, socket, hdrain, hs⟩ := writeSocket_ok called
      obtain ⟨n, hsocket, -⟩ := drain_ok hdrain
      have hsame : socket.eof = s.socket.eof := by rw [hsocket]
      rcases hs with rfl | ⟨-, rfl⟩
      · exact hsame.trans owed
      · exact hsame.trans owed
    | readSocket => exact absurd rfl other
    | writeOutput =>
      obtain ⟨inbound, output, -, rfl | ⟨-, rfl⟩⟩ := writeOutput_ok called
      · exact owed
      · exact owed

theorem Carried.callback {rules : List RuleName} (h : Carried rules s) (here : r ∈ rules) (owed : Owed r s)
    (called : (rule r).callback answers s = .ok s') : Carried rules s' := by
  cases r with
  | readInput =>
    obtain ⟨outbound, input, hfill, rfl⟩ := readInput_ok called
    exact ⟨h.nodup, h.out.fill here owed hfill, h.into⟩
  | readSocket =>
    obtain ⟨inbound, socket, hfill, rfl⟩ := readSocket_ok called
    obtain ⟨data, -, hsocket, -⟩ := fill_ok hfill
    refine ⟨h.nodup, ?_, h.into.fill here owed hfill⟩
    dsimp only
    rw [show socket.delivered = s.socket.delivered by rw [hsocket]]
    exact h.out
  | writeSocket =>
    obtain ⟨outbound, socket, hdrain, hs⟩ := writeSocket_ok called
    obtain ⟨hlane, hpassed⟩ := h.out.drain here hdrain
    obtain ⟨n, hsocket, -⟩ := drain_ok hdrain
    have hinto : Lane (.readSocket ∈ rules) (.writeOutput ∈ rules) socket.eof socket.received
        s.output.delivered s.inbound s.inboundShutdown := by
      rw [show socket.eof = s.socket.eof by rw [hsocket],
        show socket.received = s.socket.received by rw [hsocket]]
      exact h.into
    rcases hs with rfl | ⟨heof, rfl⟩
    · exact ⟨h.nodup, hlane, hinto⟩
    · exact ⟨h.nodup, hpassed heof, hinto⟩
  | writeOutput =>
    obtain ⟨inbound, output, hdrain, hs⟩ := writeOutput_ok called
    obtain ⟨hlane, hpassed⟩ := h.into.drain here hdrain
    rcases hs with rfl | ⟨heof, rfl⟩
    · exact ⟨h.nodup, h.out, hlane⟩
    · exact ⟨h.nodup, h.out, hpassed heof⟩

/-- Every callback reads or writes the descriptor of its rule. -/
theorem serviceCount_callback (called : (rule r).callback answers s = .ok s') :
    (rule r).serviceCount s ≠ (rule r).serviceCount s' := by
  cases r with
  | readInput =>
    obtain ⟨outbound, input, hfill, rfl⟩ := readInput_ok called
    obtain ⟨data, -, hinput, -⟩ := fill_ok hfill
    show s.input.readCount ≠ input.readCount
    rw [hinput]
    exact FileDescriptor.count_ne_add (by decide)
  | readSocket =>
    obtain ⟨inbound, socket, hfill, rfl⟩ := readSocket_ok called
    obtain ⟨data, -, hsocket, -⟩ := fill_ok hfill
    show s.socket.readCount ≠ socket.readCount
    rw [hsocket]
    exact FileDescriptor.count_ne_add (by decide)
  | writeSocket =>
    obtain ⟨outbound, socket, hdrain, hs⟩ := writeSocket_ok called
    obtain ⟨n, hsocket, -⟩ := drain_ok hdrain
    have hcount : socket.writeCount = s.socket.writeCount + 1 := by rw [hsocket]
    rcases hs with rfl | ⟨-, rfl⟩
    · show s.socket.writeCount ≠ socket.writeCount
      rw [hcount]
      exact FileDescriptor.count_ne_add (by decide)
    · show s.socket.writeCount ≠ socket.writeCount + 1
      rw [hcount, UInt32.add_assoc]
      exact FileDescriptor.count_ne_add (by decide)
  | writeOutput =>
    obtain ⟨inbound, output, hdrain, hs⟩ := writeOutput_ok called
    obtain ⟨n, houtput, -⟩ := drain_ok hdrain
    have hcount : output.writeCount = s.output.writeCount + 1 := by rw [houtput]
    have hne : s.output.writeCount ≠ output.writeCount := by
      rw [hcount]
      exact FileDescriptor.count_ne_add (by decide)
    rcases hs with rfl | ⟨-, rfl⟩
    · exact hne
    · exact hne

/-- **The four rules keep both ways.** -/
theorem upholds : Upholds rule (.any RuleName Answers) (fun _ => Carried) Owed where
  spare := id
  cancel := fun _ hcarried => hcarried.cancel
  asks := by
    intro _ rules r s _ _ hstays _
    cases r with
    | readInput => exact (Bool.or_eq_false_iff.mp hstays).1
    | readSocket => exact (Bool.or_eq_false_iff.mp hstays).1
    | writeSocket => trivial
    | writeOutput => trivial
  owedCancel := by
    intro r r' s _ howed
    cases r with
    | writeSocket => trivial
    | writeOutput => trivial
    | readInput => cases r' <;> exact howed
    | readSocket => cases r' <;> exact howed
  owedCallback := fun hne _ howed _ hcalled => owed_callback hne howed hcalled
  callback := fun hhere hcarried howed _ hcalled => hcarried.callback hhere howed hcalled
  busy := fun _ _ _ _ hcalled => .inl (serviceCount_callback hcalled)

theorem fill_error {e : Failure} (failed : fill stream fd answers = .error e) : e.OfKernel := by
  rcases bind_error failed with hread | ⟨read, -, failed⟩
  · exact FileDescriptor.read_error hread
  · cases failed

theorem drain_error {e : Failure} (failed : drain stream fd answers = .error e) : e.OfKernel := by
  rcases bind_error failed with hwrite | ⟨written, -, failed⟩
  · exact FileDescriptor.writev_error hwrite
  · cases failed

/-- A callback fails only where a system call does. -/
theorem callback_error {e : Failure} (failed : (rule r).callback answers s = .error e) : e.OfKernel := by
  cases r with
  | readInput =>
    rcases bind_error failed with hfill | ⟨filled, -, failed⟩
    · exact fill_error hfill
    · cases failed
  | readSocket =>
    rcases bind_error failed with hfill | ⟨filled, -, failed⟩
    · exact fill_error hfill
    · cases failed
  | writeSocket =>
    rcases bind_error failed with hdrain | ⟨⟨stream, fd⟩, -, failed⟩
    · exact drain_error hdrain
    · dsimp only at failed
      split at failed
      · rcases bind_error failed with hclose | ⟨closed, -, failed⟩
        · exact FileDescriptor.shutdown_error hclose
        · cases failed
      · cases failed
  | writeOutput =>
    rcases bind_error failed with hdrain | ⟨⟨stream, fd⟩, -, failed⟩
    · exact drain_error hdrain
    · dsimp only at failed
      split at failed
      · rcases bind_error failed with hclose | ⟨closed, -, failed⟩
        · exact FileDescriptor.close_error hclose
        · cases failed
      · cases failed

/-! ## The copy -/

theorem carried_run {c : List RuleName × State} (run : EventLoop.Run rule (rules, {}) c) :
    Carried c.1 c.2 := (upholds.run EventLoop.Kernel.any_polls (by decide) carried_new run).1

/-- What a lane has given away is a prefix of what it was given. -/
theorem Lane.delivers (h : Lane R W eof received delivered stream shutdown) : delivered <+: received :=
  (List.prefix_append _ _).trans h.carried

/-- **What comes out is what went in.** Along every run of the loop, whatever the kernel answers: what was
written to the socket is a prefix of what was read from the input, and all of it if the socket's writing
side was shut down, which happens only when the input has ended; so for the other way. A turn fails only
where `poll` reports an error or another system call goes wrong, and so never for a busy wait. -/
theorem copy_faithful {c : List RuleName × State}
    (run : EventLoop.Run rule (rules, {}) c) :
    c.2.socket.delivered <+: c.2.input.received ∧ c.2.output.delivered <+: c.2.socket.received ∧
      (c.2.outboundShutdown = true → c.2.socket.delivered = c.2.input.received ∧
        (c.2.input.eof = true ∨ .readInput ∉ c.1)) ∧
      (c.2.inboundShutdown = true → c.2.output.delivered = c.2.socket.received ∧
        (c.2.socket.eof = true ∨ .readSocket ∉ c.1)) ∧
      ∀ poll e, EventLoop.waitNextEvent rule c.1 c.2 poll = .error e →
        e = EventLoop.pollError ∨ e.OfKernel := by
  have hcarried := carried_run run
  refine ⟨hcarried.out.delivers, hcarried.into.delivers, fun hshut => (hcarried.out.passed hshut).2,
    fun hshut => (hcarried.into.passed hshut).2, fun poll e hfailed => ?_⟩
  have hblamed := upholds.wait_error (n := 0) hcarried.nodup hcarried (EventLoop.Kernel.any_polls poll)
    hfailed
  refine hblamed.imp_right ?_
  rintro ⟨_, _, _, _, _, -, -, -, -, hcallback⟩
  exact callback_error hcallback

/-- Two bytes and the end of the input go to the socket, and the end of the socket to the output. -/
def greeting : List (EventLoop.Poll RuleName Answers) :=
  [.ready fun | .readInput => { ready := some { data := .ok [104, 105] } } | _ => {},
    .ready fun
      | .readInput => { ready := some { data := .ok [] } }
      | .writeSocket => { ready := some { count := .ok 2 } }
      | .readSocket => { ready := some { data := .ok [] } }
      | .writeOutput => {},
    .ready fun | .writeOutput => { ready := some { count := .ok 0 } } | _ => {}]

theorem copy_faithful_greeting :
    let c := greeting.foldl (EventLoop.step rule) (rules, {})
    c.2.outboundShutdown = true ∧ c.2.socket.delivered = c.2.input.received ∧
      c.2.input.received = [104, 105] := by
  intro c
  have run : EventLoop.Run rule (rules, {}) c := Runs.reach_foldl .start (by decide +kernel)
  have hshut : c.2.outboundShutdown = true := by decide +kernel
  exact ⟨hshut, ((copy_faithful run).2.2.1 hshut).1, by decide +kernel⟩

theorem Lane.through (h : Lane R W eof received delivered stream shutdown) (other : ByteStream)
    (sane : other.error = false) (writing : W → hasMore stream shutdown = false)
    (reading : R → hasRoom stream other = false) :
    ¬W ∨ shutdown = true ∧ delivered = received ∧ (eof = true ∨ ¬R) := by
  by_cases hw : W
  · right
    have hquiet := writing hw
    obtain ⟨hempty, hmarked⟩ : stream.buf = [] ∧ (stream.isEnd = true → shutdown = true) := by
      unfold hasMore ByteStream.bufferEmpty ByteStream.eof at hquiet
      cases hbuf : stream.buf with
      | cons head rest => simp [hbuf] at hquiet
      | nil => simpa [hbuf] using hquiet
    have hgone : ¬R := fun hr => by
      have hroom := reading hr
      unfold hasRoom ByteStream.remainingCapacity at hroom
      rw [h.sane, sane, h.cap, hempty] at hroom
      exact absurd hroom (by decide)
    have hshut := hmarked (h.closes (.inl hgone))
    exact ⟨hshut, (h.passed hshut).2⟩
  · exact .inl hw

/-- **The loop ends when both ways are through.** If it ends and was not interrupted, each way has either
lost its writing rule, because the descriptor it writes to was closed or hung up, or has passed on
everything and then the end. -/
theorem copy_complete {c : List RuleName × State}
    (run : EventLoop.Run rule (rules, {}) c)
    {poll : EventLoop.Poll RuleName Answers} {kept : List RuleName}
    (exits : EventLoop.waitNextEvent rule c.1 c.2 poll = .ok (.exit, kept, s')) :
    poll = .interrupted ∨
      (.writeSocket ∉ kept ∨ s'.outboundShutdown = true ∧ s'.socket.delivered = s'.input.received ∧
        (s'.input.eof = true ∨ .readInput ∉ kept)) ∧
      (.writeOutput ∉ kept ∨ s'.inboundShutdown = true ∧ s'.output.delivered = s'.socket.received ∧
        (s'.socket.eof = true ∨ .readSocket ∉ kept)) := by
  obtain ⟨hcarried, hsub⟩ := upholds.run EventLoop.Kernel.any_polls (by decide) carried_new run
  obtain ⟨hend, -⟩ := upholds.wait (n := 0) hcarried.nodup hcarried (EventLoop.Kernel.any_polls poll) exits
  have hcalm : rules.Pairwise (EventLoop.Calm rule fun _ => True) := by
    simp only [rules, List.pairwise_cons, List.mem_cons, List.not_mem_nil, or_false, forall_eq_or_imp,
      forall_eq, IsEmpty.forall_iff, implies_true, List.Pairwise.nil, and_true]
    exact ⟨⟨fun _ _ h => h, fun _ _ h => h, fun _ _ h => h⟩, ⟨fun _ _ h => h, fun _ _ h => h⟩,
      fun _ _ h => h⟩
  have hexit := EventLoop.wait_exit (fun _ _ h => h) (hcalm.sublist hsub) trivial exits
  refine hexit.imp_right fun hquiet => ⟨?_, ?_⟩
  · exact hend.out.through s'.inbound hend.into.sane (hquiet .writeSocket) (hquiet .readInput)
  · exact hend.into.through s'.outbound hend.out.sane (hquiet .writeOutput) (hquiet .readSocket)

theorem copy_complete_greeting :
    let c := greeting.foldl (EventLoop.step rule) (rules, {})
    ∃ kept s', EventLoop.waitNextEvent rule c.1 c.2 .timeout = .ok (.exit, kept, s') ∧
      s'.socket.delivered = s'.input.received ∧ s'.socket.delivered = [104, 105] := by
  intro c
  have run : EventLoop.Run rule (rules, {}) c := Runs.reach_foldl .start (by decide +kernel)
  have hkept : (EventLoop.setUp rule c.1 c.2).1.map Prod.fst = [.writeSocket] := by decide +kernel
  have exits : EventLoop.waitNextEvent rule c.1 c.2 .timeout =
      .ok (.exit, (EventLoop.setUp rule c.1 c.2).1.map Prod.fst, (EventLoop.setUp rule c.1 c.2).2) := by
    have hquiet : ((EventLoop.setUp rule c.1 c.2).1.all fun p => !p.2) = true := by decide +kernel
    unfold EventLoop.waitNextEvent
    dsimp only
    rw [if_pos hquiet]
  refine ⟨_, _, exits, ?_, by decide +kernel⟩
  obtain hc | ⟨hgone | ⟨-, hall, -⟩, -⟩ := copy_complete run exits
  · cases hc
  · rw [hkept] at hgone
    exact absurd (List.mem_singleton_self _) hgone
  · exact hall

end StreamCopy

end Sponge
