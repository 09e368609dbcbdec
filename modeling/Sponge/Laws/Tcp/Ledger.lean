import Sponge.Laws.Tcp.Books
import Sponge.Laws.Tcp.Calls

/-!
# Laws.Tcp.Ledger — the books of a connection

`Ledger` is the books of a connection's sender, and that the connection's number of its own FIN is right:
behind the calls it is the number after the FIN, whatever was sent again meanwhile. Every call keeps that,
and what a call queues is what it puts on the wire.
-/

namespace Sponge

namespace TCPConnection

variable {c c' : TCPConnection} {seg : TCPSegment} {op : Op}

/-- The books of a connection's sender; its FIN is counted, or still in the queue. -/
structure Ledger (T : Bytes) (isn : WrappingInt32) (log hist : List TCPSegment) (c : TCPConnection) :
    Prop where
  books : Books T isn log (c.sender.behind hist)
  selfFin : c.sender.finSent = true → c.selfFinSeqno = c.sender.nextSeqno ∨
    ∃ seg ∈ c.sender.segmentsOut, seg.header.fin = true

variable {T : Bytes} {isn : WrappingInt32} {log hist : List TCPSegment}

theorem ledger_new (cfg : TCPConfig) : Ledger [] cfg.isn [] [] (new cfg) :=
  ⟨Books.new _ _ _, nofun⟩

theorem Ledger.congr (h : Ledger T isn log hist c) (sender : c'.sender = c.sender)
    (selfFinSeqno : c'.selfFinSeqno = c.selfFinSeqno) : Ledger T isn log hist c' := by
  refine ⟨sender ▸ h.books, ?_⟩
  rw [sender, selfFinSeqno]
  exact h.selfFin

/-- A sender that has moved on keeps the books. -/
theorem Ledger.advance (h : Ledger T isn log hist c) {T' : Bytes} {new : List TCPSegment}
    (selfFinSeqno : c'.selfFinSeqno = c.selfFinSeqno)
    (books : Books T' isn (log ++ new) (c'.sender.behind hist))
    (queued : ∀ seg ∈ c.sender.segmentsOut ++ new, seg ∈ c'.sender.segmentsOut) :
    Ledger T' isn (log ++ new) hist c' := by
  refine ⟨books, fun hfin => ?_⟩
  cases hbefore : c.sender.finSent with
  | true =>
    have hnext : (c'.sender.behind hist).nextSeqno = _ := h.books.nextSeqno_eq books hbefore
    rw [selfFinSeqno, show c'.sender.nextSeqno = c.sender.nextSeqno from hnext]
    exact (h.selfFin hbefore).imp_right fun ⟨seg, hseg, hflag⟩ =>
      ⟨seg, queued seg (List.mem_append_left _ hseg), hflag⟩
  | false =>
    obtain ⟨seg, hseg, hflag⟩ := h.books.fin_new books hbefore hfin
    exact .inr ⟨seg, queued seg (List.mem_append_right _ hseg), hflag⟩

/-- Between calls the own FIN is counted. -/
theorem Ledger.selfFin_eq (h : Ledger T isn log hist c) (ready : c.Ready)
    (fin : c.sender.finSent = true) : c.selfFinSeqno = c.sender.nextSeqno := by
  refine (h.selfFin fin).resolve_right ?_
  rw [ready.empty]
  rintro ⟨seg, hseg, -⟩
  exact absurd hseg List.not_mem_nil

theorem Ledger.setError (h : Ledger T isn log hist c) (sender : c'.sender = c.sender.setError)
    (selfFinSeqno : c'.selfFinSeqno = c.selfFinSeqno) : Ledger T isn log hist c' := by
  have hbooks : Books T isn log (c.sender.setError.behind hist) := h.books.setError
  refine ⟨sender ▸ hbooks, ?_⟩
  rw [sender, selfFinSeqno]
  exact h.selfFin

/-- Filling the window of a sender whose books are kept. -/
theorem Ledger.fill (h : Ledger T isn log hist c) {T' : Bytes} {s : TCPSender}
    (books : Books T' isn log (s.behind hist)) (same : s.segmentsOut = c.sender.segmentsOut) :
    ∃ new, Ledger T' isn (log ++ new) hist { c with sender := s.fillWindow } ∧
      s.fillWindow.nextSeqno ≤ s.nextSeqno + 65535 := by
  have hle := books.fillWindow_nextSeqno
  obtain ⟨new, hnew, hbooks⟩ := books.fillWindow
  rw [TCPSender.fillWindow_behind] at hle hnew hbooks
  refine ⟨new, h.advance rfl hbooks fun seg hseg => ?_, hle⟩
  have hcut : hist ++ s.fillWindow.segmentsOut = hist ++ s.segmentsOut ++ new := hnew
  rw [List.append_assoc] at hcut
  rw [← same] at hseg
  exact List.append_cancel_left hcut ▸ hseg

/-- Taking a segment keeps the books. -/
theorem Ledger.answer (h : Ledger T isn log hist c) (inRange : c.sender.nextSeqno < 2 ^ 64)
    {asked : Bool} (selfFinSeqno : c'.selfFinSeqno = c.selfFinSeqno)
    (sender : c'.sender = (c.sender.answer seg).acknowledge asked) :
    ∃ new, Ledger T isn (log ++ new) hist c' := by
  obtain ⟨new, hnew, hbooks⟩ := h.books.answer inRange seg
  rw [TCPSender.answer_behind] at hnew hbooks
  have hqueue : (c.sender.answer seg).segmentsOut = c.sender.segmentsOut ++ new := by
    have hcut : hist ++ (c.sender.answer seg).segmentsOut = hist ++ c.sender.segmentsOut ++ new := hnew
    rw [List.append_assoc] at hcut
    exact List.append_cancel_left hcut
  unfold TCPSender.acknowledge at sender
  split at sender
  · refine ⟨new, h.advance selfFinSeqno ?_ fun seg hseg => ?_⟩
    · rw [sender, ← TCPSender.sendEmptySegment_behind]
      exact hbooks.sendEmptySegment
    · rw [sender]
      exact List.mem_append_left _ (hqueue ▸ hseg)
  · refine ⟨new, h.advance selfFinSeqno ?_ fun seg hseg => ?_⟩
    · rw [sender]
      exact hbooks
    · rw [sender, hqueue]
      exact hseg

/-- The bytes of a call that the outbound stream accepts. -/
def accepts (c : TCPConnection) : Op → Bytes
  | .write data => data.take (c.sender.stream.write data).2
  | _ => []

/-- **A stage keeps the books**, adds what it accepts to them, and sends less than `2 ^ 16` numbers. -/
theorem Ledger.turn_accepts (h : Ledger T isn log hist c) (sound : c.Sound)
    (inRange : c.sender.nextSeqno < 2 ^ 64) {op : Op} (turn : Turn c op c') :
    ∃ new, Ledger (T ++ c.accepts op) isn (log ++ new) hist c' ∧
      c'.sender.nextSeqno ≤ c.sender.nextSeqno + 65535 := by
  cases turn with
  | write data => exact h.fill (h.books.write data) rfl
  | connect =>
    simp only [accepts, List.append_nil]
    exact h.fill h.books rfl
  | endInputStream =>
    simp only [accepts, List.append_nil]
    exact h.fill h.books.endInput rfl
  | tick ms alone =>
    have hbooks := h.books.tick ms
    rw [TCPSender.tick_behind] at hbooks
    obtain ⟨again, hqueue, -⟩ := c.sender.tick_queue ms
    simp only [accepts, List.append_nil]
    refine ⟨[], h.advance rfl ((List.append_nil log).symm ▸ hbooks) fun seg hseg => ?_, ?_⟩
    · show seg ∈ (c.sender.tick ms).segmentsOut
      rw [List.append_nil] at hseg
      rw [hqueue]
      exact List.mem_append_left _ hseg
    · show (c.sender.tick ms).nextSeqno ≤ _
      rw [TCPSender.tick_nextSeqno]
      exact Nat.le_add_right _ _
  | linger ms lingering =>
    simp only [accepts, List.append_nil]
    exact ⟨[], (List.append_nil log).symm ▸ h.congr rfl rfl, Nat.le_add_right _ _⟩
  | expire ms lingering due =>
    simp only [accepts, List.append_nil]
    exact ⟨[], (List.append_nil log).symm ▸ h.congr rfl rfl, Nat.le_add_right _ _⟩
  | handle seg kept =>
    obtain ⟨checked, asked, htakes, heq⟩ := sound.handle_eq seg
    rw [heq]
    have hanswered : ∃ new, Ledger T isn (log ++ new) hist { checked with
        receiver := checked.receiver.segmentReceived seg
        sender := (c.sender.answer seg).acknowledge asked
        newestSegTime := 0 } := h.answer inRange htakes.selfFinSeqno rfl
    obtain ⟨new, hledger⟩ := hanswered
    simp only [accepts, List.append_nil]
    refine ⟨new, hledger, ?_⟩
    have hle := h.books.answer_nextSeqno inRange seg
    rw [TCPSender.answer_behind] at hle
    rw [TCPSender.acknowledge_frame]
    exact hle

theorem Ledger.turn (h : Ledger T isn log hist c) (sound : c.Sound)
    (inRange : c.sender.nextSeqno < 2 ^ 64) {op : Op} (turn : Turn c op c') :
    ∃ T' new, Ledger T' isn (log ++ new) hist c' ∧
      c'.sender.nextSeqno ≤ c.sender.nextSeqno + 65535 :=
  ⟨_, h.turn_accepts sound inRange turn⟩

/-- **Sending keeps the books**: what was queued is history, and a FIN in it is counted. -/
theorem Ledger.sendSegs (h : Ledger T isn log hist c) (sound : c.Sound)
    (inRange : c.sender.nextSeqno < 2 ^ 64) :
    Ledger T isn log (hist ++ c.sender.segmentsOut) c.sendSegs := by
  obtain ⟨sent, hsends, heq⟩ := sound.sendSegs_eq
  rw [heq]
  refine ⟨?_, fun hfin => .inl ?_⟩
  · dsimp only
    rw [TCPSender.drained_behind]
    exact h.books
  · show sent.selfFinSeqno = c.sender.nextSeqno
    rcases hsends.selfFinSeqno with ⟨hsame, hnone⟩ | ⟨seg, hseg, hflag, hstop⟩
    · rw [hsame]
      refine (h.selfFin hfin).resolve_right ?_
      rintro ⟨seg, hseg, hflag⟩
      rw [hnone seg hseg] at hflag
      cases hflag
    · have hisn : c.sender.isn = isn := h.books.accounts.isn_eq
      rw [hstop, unwrapInConnectionSender, hisn]
      exact h.books.fin_stop inRange (List.mem_append_right _ hseg) hflag

/-- **What a call does to the books and to the wire.** What it accepts is added to the books. What it
queued is history now, and it was sent filled in from the receiver the call leaves; or the call sent a
reset and nothing else. -/
theorem Ledger.call_accepts (h : Ledger T isn log hist c) (ready : c.Ready)
    (few : c.sender.nextSeqno < 2 ^ 63) (call : Call c op c') :
    ∃ new queue, Ledger (T ++ c.accepts op) isn (log ++ new) (hist ++ queue) c' ∧
      c'.sender.nextSeqno ≤ c.sender.nextSeqno + 65535 ∧ Wired queue c c' := by
  have hsame : ∀ {c' : TCPConnection}, c.accepts op = [] → Ledger T isn log hist c' →
      Ledger (T ++ c.accepts op) isn (log ++ []) (hist ++ []) c' := by
    intro c' hnone h'
    rw [hnone, List.append_nil, List.append_nil, List.append_nil]
    exact h'
  cases call with
  | turn turn =>
    have hsound := ready.sound.turn turn
    obtain ⟨new, hledger, hle⟩ := h.turn_accepts ready.sound (by omega) turn
    refine ⟨new, _, hledger.sendSegs hsound (by omega), ?_, ready.sound.wired_turn turn⟩
    rw [hsound.sendSegs.1.sender]
    exact hle
  | giveUp ms many => exact ⟨[], [], hsame rfl (h.setError rfl rfl), Nat.le_add_right _ _, .inr rfl⟩
  | reset seg rst => exact ⟨[], [], hsame rfl (h.setError rfl rfl), Nat.le_add_right _ _, .inl rfl⟩
  | read len =>
    exact ⟨[], [], hsame rfl (h.congr rfl rfl), Nat.le_add_right _ _, .inl (List.append_nil _).symm⟩
  | idle data none =>
    have hnothing : c.accepts (.write data) = [] := by
      rw [accepts, List.length_eq_zero_iff.mp none, List.take_nil]
    exact ⟨[], [], hsame hnothing h, Nat.le_add_right _ _, .inl (List.append_nil _).symm⟩

theorem Ledger.call (h : Ledger T isn log hist c) (ready : c.Ready) (few : c.sender.nextSeqno < 2 ^ 63)
    (call : Call c op c') : ∃ T' new queue, Ledger T' isn (log ++ new) (hist ++ queue) c' ∧
      c'.sender.nextSeqno ≤ c.sender.nextSeqno + 65535 ∧ Wired queue c c' :=
  ⟨_, h.call_accepts ready few call⟩

end TCPConnection

end Sponge
