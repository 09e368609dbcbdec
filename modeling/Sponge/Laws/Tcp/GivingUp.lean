import Sponge.Laws.Tcp.Acks
import Sponge.Laws.Tcp.Calls

/-!
# Laws.Tcp.GivingUp — when a connection gives up

`tick` of the connection counts the retransmissions before it lets the sender's timer run. So the eighth
retransmission is seen by the next tick, however soon it comes, and that tick resets the connection.

A `Watching` is a connection with its last retransmission on record: the time since, and the timeout in
force after it. `Watched` says what the record has to do with the connection: while failures are counted
the timeout on record is the one in force, and at the eighth failure no time has passed yet. The last
retransmission gets its timeout exactly if the tick that gives up is long enough itself.
-/

namespace Sponge

namespace TCPSender

variable {rtTimeout : UInt16} {s s' : TCPSender}

/-- The sender of a connection that may give up: its timer was doubled at most once for each failure
counted, and nothing it may send again is a reset. -/
structure Backing (rtTimeout : UInt16) (s : TCPSender) : Prop where
  paced : ∃ k, k ≤ s.timer.failCount.toNat ∧ s.Paced rtTimeout k
  plain : ∀ seg ∈ s.outstandingBuffer, seg.header.rst = false

/-- What is not a tick leaves the failures and the timeout alone, or forgets the failures. -/
def Keeps (t t' : Timer) : Prop := t'.failCount = 0 ∨ t'.failCount = t.failCount ∧ t'.rto = t.rto

theorem Keeps.refl (t : Timer) : Keeps t t := .inr ⟨rfl, rfl⟩

theorem Keeps.trans {t t' t'' : Timer} (h : Keeps t t') (h' : Keeps t' t'') : Keeps t t'' := by
  rcases h' with hzero | ⟨hfails, hrto⟩
  · exact .inl hzero
  · rw [Keeps, hfails, hrto]
    exact h

theorem Backing.congr (h : s.Backing rtTimeout) (timer : s'.timer = s.timer)
    (outstanding : s'.outstandingBuffer = s.outstandingBuffer) : s'.Backing rtTimeout := by
  obtain ⟨k, hle, hpaced⟩ := h.paced
  refine ⟨⟨k, timer ▸ hle, hpaced.congr timer outstanding⟩, ?_⟩
  rw [outstanding]
  exact h.plain

theorem backing_new (capacity : Nat) (nonzero : rtTimeout ≠ 0) (isn : WrappingInt32) :
    (new capacity rtTimeout isn).Backing rtTimeout :=
  ⟨⟨0, Nat.zero_le _, paced_new capacity nonzero isn⟩, fun _ hseg => absurd hseg List.not_mem_nil⟩

theorem Backing.fillWindow (h : s.Backing rtTimeout) (finLast : s.FinLast) :
    s.fillWindow.Backing rtTimeout ∧ Keeps s.timer s.fillWindow.timer := by
  obtain ⟨k, hle, hpaced⟩ := h.paced
  obtain ⟨running, htimer⟩ := fillWindow_timer finLast
  refine ⟨⟨⟨k, ?_, hpaced.fillWindow finLast⟩, ?_⟩, ?_⟩
  · rw [htimer]
    exact hle
  · obtain ⟨-, -, -, hplain⟩ := fillLoop_rule
      (P := fun _ s => s.FinLast ∧ ∀ seg ∈ s.outstandingBuffer, seg.header.rst = false) (fun _ _ h => h.1)
      (fun _ s data fin h _ hsend => ⟨send_finLast hsend, fun seg hseg => by
        rcases List.mem_append.mp hseg with hseg | hseg
        · exact h.2 seg hseg
        · rw [List.mem_singleton.mp hseg]
          rfl⟩)
      (s.fillBound + 1) [] ⟨finLast, h.plain⟩
    exact hplain
  · rw [htimer]
    exact .inr ⟨rfl, rfl⟩

theorem Backing.acceptAck (h : s.Backing rtTimeout) {absAckno : Nat} (sent : absAckno ≤ s.nextSeqno)
    (windowSize : UInt16) :
    (s.acceptAck absAckno windowSize).Backing rtTimeout ∧
      Keeps s.timer (s.acceptAck absAckno windowSize).timer := by
  obtain ⟨k, hle, hpaced⟩ := h.paced
  have hplain : ∀ seg ∈ (s.acceptAck absAckno windowSize).outstandingBuffer, seg.header.rst = false :=
    fun seg hseg => h.plain seg ((ackLoop_suffix _ _ _ _ _ _).mem hseg)
  have hpaced' := hpaced.acceptAck sent windowSize
  by_cases hrestarts : s.Restarts absAckno
  · rw [if_pos hrestarts] at hpaced'
    refine ⟨⟨⟨0, Nat.zero_le _, hpaced'⟩, hplain⟩, .inl ?_⟩
    rw [acceptAck_timer]
    rcases hrestarts.2 with hnone | hnews
    · rw [if_pos hnone]
      rfl
    · rw [if_pos hnews]
      split <;> rfl
  · have htimer : (s.acceptAck absAckno windowSize).timer = s.timer := by
      rw [acceptAck_timer, if_neg fun hc => hrestarts ⟨sent, .inl hc⟩,
        if_neg fun hc => hrestarts ⟨sent, .inr hc⟩]
    rw [if_neg hrestarts] at hpaced'
    rw [htimer]
    exact ⟨⟨⟨k, htimer ▸ hle, hpaced'⟩, hplain⟩, .refl _⟩

theorem Backing.answer (h : s.Backing rtTimeout) (finLast : s.FinLast) (seg : TCPSegment) :
    (s.answer seg).Backing rtTimeout ∧ Keeps s.timer (s.answer seg).timer := by
  unfold TCPSender.answer
  split
  · rw [ackReceived_eq]
    generalize unwrap seg.header.ackno s.isn s.ackedNext = absAckno
    split
    · exact ⟨h.congr rfl rfl, .refl _⟩
    next hsent =>
      obtain ⟨hacked, hkeeps⟩ := h.acceptAck (Nat.le_of_not_lt hsent) seg.header.win
      obtain ⟨hfilled, hkeeps'⟩ := hacked.fillWindow finLast
      exact ⟨hfilled, hkeeps.trans hkeeps'⟩
  · split
    · exact h.fillWindow finLast
    · exact ⟨h, .refl _⟩

/-- A tick before the eighth failure. If the timer goes off, there is a segment to send again. -/
theorem Backing.tick (h : s.Backing rtTimeout) (fewer : s.timer.failCount.toNat < 8) (ms : Nat) :
    (s.tick ms).Backing rtTimeout ∧ (s.tick ms).timer.failCount.toNat ≤ 8 ∧
      (s.Expires ms → s.outstandingBuffer ≠ []) ∧
      (¬s.Expires ms → (s.tick ms).timer.failCount = s.timer.failCount ∧
        (s.tick ms).timer.rto = s.timer.rto) := by
  obtain ⟨k, hle, hpaced⟩ := h.paced
  have hplain : ∀ seg ∈ (s.tick ms).outstandingBuffer, seg.header.rst = false := by
    rw [tick_frame]
    exact h.plain
  have hsome : s.Expires ms → s.outstandingBuffer ≠ [] := fun hexp =>
    hpaced.runs.mp (hpaced.runs_of_expires hexp)
  have hfew : s.backoffAfter k ms < 48 := by
    unfold backoffAfter
    split <;> [split <;> omega; omega]
  have hpaced' := hpaced.tick hfew
  unfold backoffAfter at hpaced'
  rcases s.tick_cases ms with ⟨hexp, heq⟩ | ⟨hexp, hzero, heq⟩ | ⟨hexp, hzero, heq⟩
  · have hsame : (s.tick ms).timer.failCount = s.timer.failCount ∧ (s.tick ms).timer.rto = s.timer.rto := by
      rw [heq]
      exact s.timer.pass_same ms
    rw [if_neg hexp] at hpaced'
    exact ⟨⟨⟨k, hsame.1 ▸ hle, hpaced'⟩, hplain⟩, by rw [hsame.1]; omega, hsome, fun _ => hsame⟩
  · rw [if_pos hexp, if_pos hzero] at hpaced'
    refine ⟨⟨⟨0, Nat.zero_le _, hpaced'⟩, hplain⟩, ?_, hsome, fun hc => absurd hexp hc⟩
    rw [heq]
    exact Nat.le_of_lt fewer
  · rw [if_pos hexp, if_neg hzero] at hpaced'
    have hfails : (s.tick ms).timer.failCount.toNat = s.timer.failCount.toNat + 1 := by
      rw [heq]
      show (s.timer.failCount + 1).toNat = _
      rw [UInt16.toNat_add]
      exact Nat.mod_eq_of_lt (by simp; omega)
    exact ⟨⟨⟨k + 1, by omega, hpaced'⟩, hplain⟩, by omega, hsome, fun hc => absurd hexp hc⟩

end TCPSender

namespace TCPConnection

variable {rtTimeout : UInt16} {c c' : TCPConnection} {op : Op}

/-- What a call other than a tick leaves of the sender's timer. -/
structure Spares (rtTimeout : UInt16) (c c' : TCPConnection) : Prop where
  backing : c'.sender.Backing rtTimeout
  keeps : TCPSender.Keeps c.sender.timer c'.sender.timer
  rst : c'.rst = false → c.rst = false

theorem Sound.spares_turn (h : c.Sound) (backing : c.sender.Backing rtTimeout) (turn : Turn c op c')
    (untimed : ∀ ms, op ≠ .tick ms) : Spares rtTimeout c c'.sendSegs := by
  have hdrained := (h.turn turn).sendSegs.1
  have hrst : c'.sendSegs.rst = c.rst := hdrained.rst.trans (h.turn_frame turn).2.2
  have hsender : c'.sender.Backing rtTimeout ∧ TCPSender.Keeps c.sender.timer c'.sender.timer := by
    cases turn with
    | connect => exact backing.fillWindow h.marked.finLast
    | write data =>
      have hwritten : (c.sender.write data).Backing rtTimeout := backing.congr rfl rfl
      exact hwritten.fillWindow (h.marked.write data).finLast
    | endInputStream =>
      have hended : c.sender.endInput.Backing rtTimeout := backing.congr rfl rfl
      exact hended.fillWindow h.marked.endInput.finLast
    | tick ms alone => exact absurd rfl (untimed ms)
    | linger ms lingering => exact absurd rfl (untimed ms)
    | expire ms lingering due => exact absurd rfl (untimed ms)
    | handle seg kept =>
      obtain ⟨checked, asked, -, heq⟩ := h.handle_eq seg
      obtain ⟨hanswered, hkeeps⟩ := backing.answer h.marked.finLast seg
      rw [heq]
      dsimp only
      rw [TCPSender.acknowledge_frame]
      exact ⟨hanswered.congr rfl rfl, hkeeps⟩
  refine ⟨?_, ?_, fun hc => hrst ▸ hc⟩
  · rw [hdrained.sender]
    exact hsender.1.congr rfl rfl
  · rw [hdrained.sender]
    exact hsender.2

theorem Ready.spares (h : c.Ready) (backing : c.sender.Backing rtTimeout) (call : Call c op c')
    (untimed : ∀ ms, op ≠ .tick ms) : Spares rtTimeout c c' := by
  cases call with
  | turn turn => exact h.sound.spares_turn backing turn untimed
  | giveUp ms many => exact absurd rfl (untimed ms)
  | reset seg rst => exact ⟨backing.congr rfl rfl, .refl _, nofun⟩
  | read len => exact ⟨backing, .refl _, id⟩
  | idle data none => exact ⟨backing, .refl _, id⟩

/-- What a tick does: it gives up, lets the sender's timer run, or lingers. -/
theorem Ready.tick_cases (h : c.Ready) (ms : Nat) :
    MAX_RETX_ATTEMPTS ≤ c.sender.timer.failCount.toNat ∧ c.tick ms = (c.pass ms).reset true ∨
      c.sender.timer.failCount.toNat < MAX_RETX_ATTEMPTS ∧ c.lingering = false ∧
        (c.tick ms).sender = (c.sender.tick ms).drained ∧ (c.tick ms).rst = c.rst ∧
        (∃ fill : TCPSegment → TCPSegment, (∀ seg, (fill seg).header.rst = seg.header.rst) ∧
          (c.tick ms).segmentsOut = c.segmentsOut ++ (c.sender.tick ms).segmentsOut.map fill) ∨
      c.sender.timer.failCount.toNat < MAX_RETX_ATTEMPTS ∧ c.lingering = true ∧
        (c.tick ms).sender = c.sender ∧ (c.tick ms).rst = c.rst ∧
        (c.tick ms).segmentsOut = c.segmentsOut := by
  have hempty := h.empty
  unfold TCPConnection.tick checkTimers
  by_cases hmany : MAX_RETX_ATTEMPTS ≤ c.sender.timer.failCount.toNat
  · rw [if_pos (show MAX_RETX_ATTEMPTS ≤ (c.pass ms).sender.timer.failCount.toNat from hmany)]
    exact .inl ⟨hmany, rfl⟩
  · rw [if_neg (show ¬MAX_RETX_ATTEMPTS ≤ (c.pass ms).sender.timer.failCount.toNat from hmany)]
    have hfew := Nat.lt_of_not_le hmany
    right
    cases hlinger : c.lingering with
    | false =>
      rw [if_pos (by rw [show (c.pass ms).lingering = false from hlinger]; rfl)]
      obtain ⟨hdrained, -⟩ := (h.sound.turn (.tick ms hlinger)).sendSegs
      refine .inl ⟨hfew, rfl, hdrained.sender, hdrained.rst, _, fun seg => ?_, hdrained.segmentsOut⟩
      obtain ⟨win, ack, ackno, heq⟩ := TCPConnection.fillSegFields_eq
        { c.pass ms with sender := c.sender.tick ms } seg
      rw [heq]
    | true =>
      rw [if_neg (by rw [show (c.pass ms).lingering = true from hlinger]; exact Bool.false_ne_true)]
      have hidle : (c.pass ms).checkExpiry.sendSegs = (c.pass ms).checkExpiry := by
        refine sendSegs_of_empty ?_
        unfold checkExpiry
        split <;> exact hempty
      rw [hidle]
      refine .inr ⟨hfew, rfl, ?_⟩
      unfold checkExpiry
      split <;> exact ⟨rfl, rfl, rfl⟩

end TCPConnection

/-- The last retransmission: the time since, and the timeout in force after it. -/
structure Retransmission where
  elapsed : Nat
  rto : Nat
deriving DecidableEq

/-- A connection with its last retransmission on record. -/
structure Watching where
  connection : TCPConnection
  last : Option Retransmission

namespace Watching

open TCPConnection (Op)

/-- A tick sends a segment again: the connection does not give up or linger, and the timer goes off. -/
def Retransmits (c : TCPConnection) (ms : Nat) : Prop :=
  c.sender.timer.failCount.toNat < MAX_RETX_ATTEMPTS ∧ c.lingering = false ∧ c.sender.Expires ms ∧
    c.sender.outstandingBuffer ≠ []

instance (c : TCPConnection) (ms : Nat) : Decidable (Retransmits c ms) :=
  inferInstanceAs (Decidable (_ ∧ _))

def new (cfg : TCPConfig) : Watching := ⟨TCPConnection.new cfg, none⟩

def step (w : Watching) (op : Op) : Watching where
  connection := w.connection.step op
  last :=
    match op with
    | .tick ms =>
      if Retransmits w.connection ms then some ⟨0, (w.connection.tick ms).sender.timer.rto⟩
      else w.last.map fun last => { last with elapsed := last.elapsed + ms }
    | .connect | .write _ | .endInputStream | .segmentReceived _ | .read _ => w.last

/-- The record agrees with a sender: while failures are counted there is a last retransmission, and the
timeout after it is in force. -/
structure Recorded (last : Option Retransmission) (s : TCPSender) (rst : Bool) : Prop where
  many : s.timer.failCount.toNat ≤ MAX_RETX_ATTEMPTS
  some : s.timer.failCount ≠ 0 → ∃ r, last = some r ∧ r.rto = s.timer.rto ∧
    (rst = false → MAX_RETX_ATTEMPTS ≤ s.timer.failCount.toNat → r.elapsed = 0)

/-- What holds of a watched connection between its calls. -/
structure Watched (rtTimeout : UInt16) (w : Watching) : Prop where
  ready : w.connection.Ready
  backing : w.connection.sender.Backing rtTimeout
  recorded : Recorded w.last w.connection.sender w.connection.rst

variable {rtTimeout : UInt16} {w : Watching}

theorem Watched.spares (h : Watched rtTimeout w) {c' : TCPConnection} (ready : c'.Ready)
    (spares : TCPConnection.Spares rtTimeout w.connection c') : Watched rtTimeout ⟨c', w.last⟩ := by
  refine ⟨ready, spares.backing, ?_, fun hfails => ?_⟩
  · rcases spares.keeps with hzero | ⟨hsame, -⟩
    · dsimp only
      rw [hzero]
      exact Nat.zero_le _
    · dsimp only
      rw [hsame]
      exact h.recorded.many
  · rcases spares.keeps with hzero | ⟨hsame, hrto⟩
    · exact absurd hzero hfails
    · dsimp only at hfails ⊢
      rw [hsame] at hfails ⊢
      rw [hrto]
      obtain ⟨r, hlast, hr, hfresh⟩ := h.recorded.some hfails
      exact ⟨r, hlast, hr, fun hrst => hfresh (spares.rst hrst)⟩

/-- A tick after which no failure more is counted only adds to the time elapsed. -/
theorem Recorded.pass {last : Option Retransmission} {s s' : TCPSender} {rst rst' : Bool}
    (h : Recorded last s rst) (ms : Nat) (fails : s'.timer.failCount = s.timer.failCount)
    (rto : s'.timer.rto = s.timer.rto)
    (due : rst' = false → ¬MAX_RETX_ATTEMPTS ≤ s.timer.failCount.toNat) :
    Recorded (last.map fun r => { r with elapsed := r.elapsed + ms }) s' rst' := by
  refine ⟨fails ▸ h.many, fun hfails => ?_⟩
  rw [fails] at hfails ⊢
  obtain ⟨r, hlast, hr, -⟩ := h.some hfails
  rw [hlast, rto]
  exact ⟨_, rfl, hr, fun hrst hmany => absurd hmany (due hrst)⟩

theorem Watched.tick (h : Watched rtTimeout w) (ms : Nat) : Watched rtTimeout (w.step (.tick ms)) := by
  have hready : (w.connection.tick ms).Ready := h.ready.step (.tick ms)
  rcases h.ready.tick_cases ms with ⟨hmany, heq⟩ | ⟨hfew, halone, hsender, hrst, -⟩ |
    ⟨hfew, hlinger, hsender, hrst, -⟩
  · have hquiet : ¬Retransmits w.connection ms := fun hc => absurd hmany (Nat.not_le_of_lt hc.1)
    refine ⟨hready, ?_, ?_⟩
    · show (w.connection.tick ms).sender.Backing rtTimeout
      rw [heq]
      exact h.backing.congr rfl rfl
    · dsimp only [step, TCPConnection.step]
      rw [if_neg hquiet, heq]
      exact h.recorded.pass ms rfl rfl nofun
  · obtain ⟨hbacking, hcount, hsome, hsame⟩ := h.backing.tick hfew ms
    refine ⟨hready, ?_, ?_⟩
    · show (w.connection.tick ms).sender.Backing rtTimeout
      rw [hsender]
      exact hbacking.congr rfl rfl
    · dsimp only [step, TCPConnection.step]
      by_cases hexp : w.connection.sender.Expires ms
      · rw [if_pos ⟨hfew, halone, hexp, hsome hexp⟩]
        refine ⟨?_, fun _ => ⟨_, rfl, rfl, fun _ _ => rfl⟩⟩
        rw [hsender]
        exact hcount
      · rw [if_neg fun hc => hexp hc.2.2.1, hsender]
        obtain ⟨hfails, hrto⟩ := hsame hexp
        exact h.recorded.pass ms hfails hrto fun _ => Nat.not_le_of_lt hfew
  · have hquiet : ¬Retransmits w.connection ms := fun hc => absurd (hlinger.symm.trans hc.2.1) nofun
    refine ⟨hready, ?_, ?_⟩
    · show (w.connection.tick ms).sender.Backing rtTimeout
      rw [hsender]
      exact h.backing
    · dsimp only [step, TCPConnection.step]
      rw [if_neg hquiet, hsender]
      exact h.recorded.pass ms rfl rfl fun _ => Nat.not_le_of_lt hfew

/-- **Every call keeps the record.** -/
theorem Watched.step (h : Watched rtTimeout w) (op : Op) : Watched rtTimeout (w.step op) := by
  have hcall := w.connection.call_step op
  have hready := h.ready.step op
  cases op with
  | tick ms => exact h.tick ms
  | connect => exact h.spares hready (h.ready.spares h.backing hcall nofun)
  | write data => exact h.spares hready (h.ready.spares h.backing hcall nofun)
  | endInputStream => exact h.spares hready (h.ready.spares h.backing hcall nofun)
  | segmentReceived seg => exact h.spares hready (h.ready.spares h.backing hcall nofun)
  | read len => exact h.spares hready (h.ready.spares h.backing hcall nofun)

theorem watched_of_run {cfg : TCPConfig} (nonzero : cfg.rtTimeout ≠ 0) {ok : Watching → Op → Prop}
    (run : Runs.Reach step ok (new cfg) w) : Watched cfg.rtTimeout w := by
  refine run.invariant (Watched cfg.rtTimeout) ⟨TCPConnection.ready_new cfg, ?_, ?_⟩ fun _ op h _ => h.step op
  · exact TCPSender.backing_new cfg.sendCapacity nonzero cfg.isn
  · exact ⟨Nat.zero_le _, fun hc => absurd rfl hc⟩

/-- The tick gives up: what it queues is a reset. -/
def Aborts (c : TCPConnection) (ms : Nat) : Prop :=
  ∃ seg, (c.tick ms).segmentsOut = c.segmentsOut ++ [seg] ∧ seg.header.rst = true

/-- A tick that queues a reset has found eight failures. -/
theorem Watched.many_of_aborts (h : Watched rtTimeout w) {ms : Nat} (aborts : Aborts w.connection ms) :
    MAX_RETX_ATTEMPTS ≤ w.connection.sender.timer.failCount.toNat := by
  obtain ⟨seg, hout, hreset⟩ := aborts
  rcases h.ready.tick_cases ms with ⟨hmany, -⟩ | ⟨-, -, -, -, fill, hfill, hqueue⟩ | ⟨-, -, -, -, hqueue⟩
  · exact hmany
  · -- what the sender queues is outstanding, and no reset
    exfalso
    obtain ⟨again, hagain, hheld⟩ := w.connection.sender.tick_queue ms
    rw [h.ready.empty, List.nil_append] at hagain
    rw [hqueue, hagain] at hout
    have hseg : seg ∈ again.map fill := by
      rw [List.append_cancel_left hout]
      exact List.mem_singleton_self seg
    obtain ⟨old, hold, rfl⟩ := List.mem_map.mp hseg
    rw [hfill, h.backing.plain old (hheld old hold)] at hreset
    cases hreset
  · rw [hqueue] at hout
    exact absurd (List.append_right_eq_self.mp hout.symm) (List.cons_ne_nil _ _)

/-- **The last retransmission gets its timeout if the tick that gives up is as long as that.** There has
been a retransmission, and the timeout in force after it is still the sender's. Unless the connection was
reset before, no tick came in between, so that the tick has to be as long as that. -/
theorem last_retransmission_timed_out {cfg : TCPConfig} (nonzero : cfg.rtTimeout ≠ 0)
    (run : Runs.Reach step (fun _ _ => True) (new cfg) w) {ms : Nat} (aborts : Aborts w.connection ms) :
    ∃ r, w.last = some r ∧ r.rto = w.connection.sender.timer.rto ∧
      (w.connection.sender.timer.rto ≤ ms → r.rto ≤ r.elapsed + ms) ∧
      (w.connection.rst = false → r.elapsed = 0 ∧
        (r.rto ≤ r.elapsed + ms ↔ w.connection.sender.timer.rto ≤ ms)) := by
  have h := watched_of_run nonzero run
  have hmany := h.many_of_aborts aborts
  have hfails : w.connection.sender.timer.failCount ≠ 0 := fun hc => by
    rw [hc] at hmany
    exact absurd hmany (by decide)
  obtain ⟨r, hlast, hrto, hfresh⟩ := h.recorded.some hfails
  refine ⟨r, hlast, hrto, fun hlong => by omega, fun hrst => ?_⟩
  have hnow := hfresh hrst hmany
  exact ⟨hnow, by rw [hnow, hrto, Nat.zero_add]⟩

/-- A SYN that is never answered, sent again eight times. -/
def unanswered : Watching :=
  [.connect, .tick 1000, .tick 2000, .tick 4000, .tick 8000, .tick 16000, .tick 32000, .tick 64000,
    .tick 128000].foldl step (new {})

/-- The ninth tick lasts as long as the timeout. -/
theorem last_retransmission_timed_out_long :
    Aborts unanswered.connection 256000 ∧
      ∃ r, unanswered.last = some r ∧ r.rto ≤ r.elapsed + 256000 := by
  have haborts : Aborts unanswered.connection 256000 :=
    ⟨TCPConnection.rstSegment, by decide +kernel, rfl⟩
  have hrun : Runs.Reach step (fun _ _ => True) (new {}) unanswered :=
    Runs.reach_foldl .start (by decide +kernel)
  obtain ⟨r, hlast, -, hlong, -⟩ := last_retransmission_timed_out (by decide) hrun haborts
  exact ⟨haborts, r, hlast, hlong (by decide +kernel)⟩

/-- The ninth tick comes a millisecond after the eighth retransmission, and the connection is reset. -/
theorem gives_up_too_soon :
    Aborts unanswered.connection 1 ∧ unanswered.connection.rst = false ∧
      unanswered.last = some ⟨0, 256000⟩ ∧ ¬256000 ≤ 0 + 1 :=
  ⟨⟨TCPConnection.rstSegment, by decide +kernel, rfl⟩, by decide +kernel, by decide +kernel, by decide⟩

end Watching

end Sponge
