import Sponge.Lib.Backoff
import Sponge.Laws.Tcp.GivingUp

/-!
# Laws.Tcp.Silence — a connection whose peer says no more

Something is outstanding, and from some moment on no segment arrives and the owner makes no call but
`tick`. What happens then is a matter of the timer alone, and it is what a waiting party of `Backoff` does:
`Waits` ties the two, `Waits.tick` is the simulation, and the laws are those of `Backoff` read back.

Under a window that is not zero the oldest segment goes out again with doubled pauses until eight
retransmissions are counted, and the tick after that resets the connection (`silence_ends`): not before
the sum of the pauses, and at most one tick for each pause later. Under a window of zero the connection
probes for ever (`zero_window_waits`).

The time since the last segment is not among what these laws speak of: it matters to a connection that
lingers only.
-/

namespace Sponge

open Word64 (add)

namespace TCPSender

variable {rtTimeout : UInt16} {probing : Bool} {seg : TCPSegment} {b : Backoff.State} {s : TCPSender}
  {ms : Nat}

/-- A sender that waits for an answer to `seg`, its oldest outstanding segment, as the party `b`. -/
structure Waits (rtTimeout : UInt16) (probing : Bool) (seg : TCPSegment) (b : Backoff.State)
    (s : TCPSender) : Prop where
  paced : s.Paced rtTimeout b.exponent
  few : b.exponent ≤ b.fails
  fails : s.timer.failCount.toNat = b.fails
  most : b.fails ≤ MAX_RETX_ATTEMPTS
  elapsed : s.timer.timePass = b.elapsed
  oldest : s.outstandingBuffer.head? = some seg
  window : s.receivedWindowSize = 0 ↔ probing = true

/-- Only the timer, the outstanding segments and the window matter. -/
theorem Waits.congr (h : Waits rtTimeout probing seg b s) (s' : TCPSender) (timer : s'.timer = s.timer)
    (outstanding : s'.outstandingBuffer = s.outstandingBuffer)
    (window : s'.receivedWindowSize = s.receivedWindowSize) (sent : Nat) (ended : Bool) :
    Waits rtTimeout probing seg { b with sent, ended } s' :=
  ⟨h.paced.congr timer outstanding, h.few, timer ▸ h.fails, h.most, timer ▸ h.elapsed,
    outstanding ▸ h.oldest, window ▸ h.window⟩

theorem Waits.runs (h : Waits rtTimeout probing seg b s) : s.timer.running = true := by
  refine h.paced.runs.mpr fun hnone => ?_
  have hold := h.oldest
  rw [hnone] at hold
  cases hold

/-- No timeout that is waited for comes near the end of the clock. -/
theorem Waits.due_lt (h : Waits rtTimeout probing seg b s) : b.due rtTimeout.toNat < 2 ^ 24 := by
  have hpow : 2 ^ b.exponent ≤ 2 ^ 8 := Nat.pow_le_pow_right (by decide) (Nat.le_trans h.few h.most)
  calc rtTimeout.toNat * 2 ^ b.exponent ≤ rtTimeout.toNat * 2 ^ 8 := Nat.mul_le_mul_left _ hpow
    _ < 2 ^ 16 * 2 ^ 8 := Nat.mul_lt_mul_of_pos_right rtTimeout.toNat_lt (by decide)
    _ = 2 ^ 24 := by decide

theorem Waits.early (h : Waits rtTimeout probing seg b s) : b.elapsed < b.due rtTimeout.toNat := by
  have hearly := h.paced.backed.early
  rwa [h.elapsed, h.paced.backed.rto] at hearly

theorem Waits.timePass (h : Waits rtTimeout probing seg b s) (short : ms < 2 ^ 63) :
    (s.timer.pass ms).timePass = b.elapsed + ms := by
  have hearly := h.early
  have hdue := h.due_lt
  unfold Timer.pass
  rw [if_pos h.runs]
  show add s.timer.timePass ms = _
  rw [h.elapsed]
  exact Nat.mod_eq_of_lt (by omega)

/-- The timer goes off when the party's does. -/
theorem Waits.expires_iff (h : Waits rtTimeout probing seg b s) (short : ms < 2 ^ 63) :
    s.Expires ms ↔ b.due rtTimeout.toNat ≤ b.elapsed + ms := by
  unfold Expires Timer.isExpire
  rw [decide_eq_true_iff, h.timePass short, (s.timer.pass_same ms).2, h.paced.backed.rto]
  rfl

/-- **A sender ticks as the party does**, and sends the segment again whenever the party repeats. -/
theorem Waits.tick (h : Waits rtTimeout probing seg b s) (fewer : b.fails < MAX_RETX_ATTEMPTS)
    (short : ms < 2 ^ 63) :
    Waits rtTimeout probing seg (Backoff.tick rtTimeout.toNat MAX_RETX_ATTEMPTS probing b ms) (s.tick ms) ∧
      ∃ n, (Backoff.tick rtTimeout.toNat MAX_RETX_ATTEMPTS probing b ms).sent = b.sent + n ∧
        (s.tick ms).segmentsOut = s.segmentsOut ++ List.replicate n seg := by
  have hexpires := h.expires_iff short
  have hfew := h.few
  have hbound : MAX_RETX_ATTEMPTS = 8 := rfl
  have hpaced : s.backoffAfter b.exponent ms < 48 →
      (s.tick ms).Paced rtTimeout (s.backoffAfter b.exponent ms) := h.paced.tick
  unfold backoffAfter at hpaced
  have holdest : s.outstandingBuffer.head?.toList = [seg] := by
    rw [h.oldest]
    rfl
  unfold Backoff.tick
  rw [if_neg (Nat.not_le_of_lt fewer)]
  rcases s.tick_cases ms with ⟨hquiet, heq⟩ | ⟨hexp, hzero, heq⟩ | ⟨hexp, hopen, heq⟩
  · rw [if_neg hquiet, heq] at hpaced
    rw [if_neg fun hc => hquiet (hexpires.mpr hc), heq]
    obtain ⟨hfails, -⟩ := s.timer.pass_same ms
    exact ⟨⟨hpaced (by omega), h.few, hfails ▸ h.fails, h.most, h.timePass short, h.oldest, h.window⟩,
      0, rfl, (List.append_nil _).symm⟩
  · rw [if_pos hexp, if_pos hzero, heq] at hpaced
    rw [if_pos (hexpires.mp hexp), h.window.mp hzero, heq]
    refine ⟨⟨hpaced (by decide), Nat.zero_le _, h.fails, h.most, rfl, h.oldest, h.window.trans ?_⟩, 1, rfl,
      ?_⟩
    · rw [h.window.mp hzero]
    · rw [sendAgain, holdest]
      rfl
  · have hdoubles : probing = false := eq_false_of_ne_true fun hc => hopen (h.window.mpr hc)
    have hcounted : (s.timer.failCount + 1).toNat = b.fails + 1 := by
      rw [UInt16.toNat_add, h.fails]
      exact Nat.mod_eq_of_lt (by simp; omega)
    rw [if_pos hexp, if_neg hopen, heq] at hpaced
    rw [if_pos (hexpires.mp hexp), heq]
    subst hdoubles
    refine ⟨⟨hpaced (by omega), ?_, hcounted, fewer, rfl, h.oldest, h.window⟩, 1, rfl, ?_⟩
    · exact Nat.succ_le_succ hfew
    · rw [sendAgain, holdest]
      rfl

end TCPSender

namespace TCPConnection

variable {cfg : TCPConfig} {rtTimeout : UInt16} {c c' : TCPConnection} {seg filled : TCPSegment} {ms : Nat}
  {probing : Bool} {out : List TCPSegment} {b : Backoff.State}

/-- Time passes: a run of ticks and nothing else. -/
def age (c : TCPConnection) (ticks : List Nat) : TCPConnection := ticks.foldl tick c

/-- Neither lingering nor about to: the own FIN is not acknowledged. -/
def Unacked (c : TCPConnection) : Prop := c.lingering = false ∧ c.selfFinAcked = false

instance (c : TCPConnection) : Decidable c.Unacked := inferInstanceAs (Decidable (_ ∧ _))

theorem Unacked.sendSegs (h : c.Unacked) : c.sendSegs.Unacked := by
  refine sendSegs_rule (fun c seg h => ?_) (fun c h => ?_) (fun _ _ _ h => h) h
  · rw [noteSelfFin_frame]
    exact h
  · refine ⟨?_, ?_⟩
    · rw [checkLinger_lingering, h.1, h.2]
      rfl
    · rw [checkLinger_frame]
      exact h.2

/-- A connection that waits for an answer to `seg`, as the party `b`. What it has sent since `out` is that
segment, filled in, once for each repetition, and then resets. -/
structure Waits (rtTimeout : UInt16) (probing : Bool) (seg filled : TCPSegment) (out : List TCPSegment)
    (b : Backoff.State) (c : TCPConnection) : Prop where
  ready : c.Ready
  sender : c.sender.Waits rtTimeout probing seg b
  unacked : c.Unacked
  fills : c.fillSegFields seg = filled
  ended : c.rst = b.ended
  alive : b.fails < MAX_RETX_ATTEMPTS → b.ended = false
  sent : ∃ resets, c.segmentsOut =
    out ++ List.replicate b.sent filled ++ List.replicate resets rstSegment ∧ (c.rst = false ↔ resets = 0)

theorem tick_of_alone (fewer : c.sender.timer.failCount.toNat < MAX_RETX_ATTEMPTS)
    (alone : c.lingering = false) (ms : Nat) :
    c.tick ms = { c.pass ms with sender := c.sender.tick ms }.sendSegs := by
  unfold TCPConnection.tick checkTimers
  rw [if_neg (show ¬MAX_RETX_ATTEMPTS ≤ (c.pass ms).sender.timer.failCount.toNat from Nat.not_le_of_lt fewer),
    if_pos (by rw [show (c.pass ms).lingering = false from alone]; rfl)]
  rfl

theorem tick_of_many (many : MAX_RETX_ATTEMPTS ≤ c.sender.timer.failCount.toNat) (ms : Nat) :
    c.tick ms = (c.pass ms).reset true := by
  unfold TCPConnection.tick checkTimers
  rw [if_pos (show MAX_RETX_ATTEMPTS ≤ (c.pass ms).sender.timer.failCount.toNat from many)]

/-- **A connection ticks as the party does.** -/
theorem Waits.tick (h : Waits rtTimeout probing seg filled out b c) (short : ms < 2 ^ 63) :
    Waits rtTimeout probing seg filled out (Backoff.tick rtTimeout.toNat MAX_RETX_ATTEMPTS probing b ms)
      (c.tick ms) := by
  have hready : (c.tick ms).Ready := h.ready.step (.tick ms)
  obtain ⟨resets, hsent, hnone⟩ := h.sent
  by_cases hmany : MAX_RETX_ATTEMPTS ≤ b.fails
  · have hcount : MAX_RETX_ATTEMPTS ≤ c.sender.timer.failCount.toNat := h.sender.fails ▸ hmany
    rw [Backoff.tick, if_pos hmany]
    rw [tick_of_many hcount] at hready ⊢
    refine ⟨hready, h.sender.congr c.sender.setError rfl rfl rfl b.sent true, h.unacked, ?_, rfl,
      fun hc => absurd hmany (Nat.not_le_of_lt hc), resets + 1, ?_, ?_⟩
    · rw [← h.fills]
      exact congrFun (fillSegFields_congr (TCPReceiver.flagged_setError c.receiver)) seg
    · rw [List.replicate_succ', ← List.append_assoc, ← hsent]
      rfl
    · exact ⟨fun hc => absurd hc Bool.noConfusion, fun hc => absurd hc (Nat.succ_ne_zero resets)⟩
  · have hfew := Nat.lt_of_not_le hmany
    have hcount : c.sender.timer.failCount.toNat < MAX_RETX_ATTEMPTS := h.sender.fails ▸ hfew
    obtain ⟨hwaits, n, hn, hagain⟩ := h.sender.tick hfew short
    obtain ⟨hdrained, -⟩ := (h.ready.sound.turn (.tick ms h.unacked.1)).sendSegs
    have hended : (Backoff.tick rtTimeout.toNat MAX_RETX_ATTEMPTS probing b ms).ended = b.ended := by
      unfold Backoff.tick
      rw [if_neg hmany]
      split <;> rfl
    have hresets : resets = 0 := hnone.mp (h.ended.trans (h.alive hfew))
    generalize Backoff.tick rtTimeout.toNat MAX_RETX_ATTEMPTS probing b ms = b' at *
    rw [tick_of_alone hcount h.unacked.1] at hready ⊢
    refine ⟨hready, ?_, Unacked.sendSegs h.unacked, ?_, ?_, fun _ => hended.trans (h.alive hfew), 0, ?_, ?_⟩
    · rw [hdrained.sender]
      exact hwaits.congr (c.sender.tick ms).drained rfl rfl rfl b'.sent b'.ended
    · rw [← h.fills]
      exact congrFun (fillSegFields_congr (flagged_of_or hdrained.receiver)) seg
    · rw [hdrained.rst, hended]
      exact h.ended
    · rw [hdrained.segmentsOut]
      show c.segmentsOut ++ (c.sender.tick ms).segmentsOut.map c.fillSegFields = _
      rw [hagain, h.ready.empty, hsent, hresets, hn, List.nil_append, List.map_replicate, h.fills,
        List.replicate_add]
      simp only [List.replicate_zero, List.append_nil, List.append_assoc]
    · rw [hdrained.rst]
      exact ⟨fun _ => rfl, fun _ => h.ended.trans (h.alive hfew)⟩

theorem Waits.age (h : Waits rtTimeout probing seg filled out b c) {ticks : List Nat}
    (short : ∀ ms ∈ ticks, ms < 2 ^ 63) :
    Waits rtTimeout probing seg filled out (Backoff.run rtTimeout.toNat MAX_RETX_ATTEMPTS probing b ticks)
      (c.age ticks) := by
  induction ticks generalizing b c with
  | nil => exact h
  | cons ms ticks ih =>
    obtain ⟨hhead, hrest⟩ := List.forall_mem_cons.mp short
    exact ih (h.tick hhead) hrest

/-! ## Runs -/

/-- The timer of every connection that is reached is backed off as its failures say. -/
theorem backing_of_run (nonzero : cfg.rtTimeout ≠ 0) {ok : TCPConnection → Op → Prop}
    (run : Runs.Reach step ok (new cfg) c) : c.Ready ∧ c.sender.Backing cfg.rtTimeout := by
  have hwatched : ∃ w : Watching, w.connection = c ∧ w.Watched cfg.rtTimeout := by
    induction run with
    | start =>
      have hstart : Runs.Reach Watching.step (fun _ _ => True) (.new cfg) (.new cfg) := .start
      exact ⟨.new cfg, rfl, Watching.watched_of_run nonzero hstart⟩
    | next _ _ ih =>
      obtain ⟨w, rfl, h⟩ := ih
      exact ⟨w.step _, rfl, h.step _⟩
  obtain ⟨w, rfl, h⟩ := hwatched
  exact ⟨h.ready, h.backing⟩

/-- A connection that waits for an answer: it was not reset, and lets its timer run. -/
structure Awaits (seg : TCPSegment) (c : TCPConnection) : Prop where
  alive : c.rst = false
  oldest : c.sender.outstandingBuffer.head? = some seg
  unacked : c.Unacked
  fewer : c.sender.timer.failCount.toNat < MAX_RETX_ATTEMPTS

/-- Every connection that waits for an answer does so as some party. -/
theorem Awaits.waits (h : Awaits seg c) (nonzero : cfg.rtTimeout ≠ 0) {ok : TCPConnection → Op → Prop}
    (run : Runs.Reach step ok (new cfg) c) (probing : Bool)
    (window : c.sender.receivedWindowSize = 0 ↔ probing = true) :
    ∃ b : Backoff.State, Waits cfg.rtTimeout probing seg (c.fillSegFields seg) c.segmentsOut b c ∧
      b.due cfg.rtTimeout.toNat = c.sender.timer.rto ∧ b.fails = c.sender.timer.failCount.toNat ∧
      b.elapsed = c.sender.timer.timePass ∧ b.sent = 0 ∧ b.ended = false := by
  obtain ⟨hready, hbacking⟩ := backing_of_run nonzero run
  obtain ⟨k, hk, hpaced⟩ := hbacking.paced
  refine ⟨⟨k, c.sender.timer.failCount.toNat, c.sender.timer.timePass, 0, false⟩, ?_,
    hpaced.backed.rto.symm, rfl, rfl, rfl, rfl⟩
  refine ⟨hready, ⟨hpaced, hk, rfl, Nat.le_of_lt h.fewer, rfl, h.oldest, window⟩, h.unacked, rfl, h.alive,
    fun _ => rfl, 0, ?_, ⟨fun _ => rfl, fun _ => h.alive⟩⟩
  rw [List.replicate_zero, List.replicate_zero, List.append_nil, List.append_nil]

/-- **Silence ends a connection, and nothing sooner.** A reachable connection waits for an answer under a
window that is not zero, and has counted fewer than eight failures. However the time is cut into ticks of at
most `δ`, it is not reset before its timer's remaining pauses are over, and it is reset by then and one `δ`
for each of them; what it has sent meanwhile is its oldest segment, once for each failure left, and then
resets. -/
theorem silence_ends (nonzero : cfg.rtTimeout ≠ 0) {ok : TCPConnection → Op → Prop}
    (run : Runs.Reach step ok (new cfg) c) (awaits : Awaits seg c) (opened : c.sender.receivedWindowSize ≠ 0)
    {δ : Nat} (pos : 0 < δ) (clock : δ < 2 ^ 63) {ticks : List Nat} (short : ∀ ms ∈ ticks, ms ≤ δ) :
    let left := MAX_RETX_ATTEMPTS - c.sender.timer.failCount.toNat
    let pauses := c.sender.timer.rto * (2 ^ left - 1)
    let passed := c.sender.timer.timePass + ticks.sum
    (passed < pauses → (c.age ticks).rst = false) ∧
      (pauses + left * δ ≤ passed → (c.age ticks).rst = true) ∧
      ∃ n resets, (c.age ticks).segmentsOut = c.segmentsOut ++ List.replicate n (c.fillSegFields seg) ++
          List.replicate resets rstSegment ∧
        n ≤ left ∧ ((c.age ticks).rst = true → n = left) ∧ ((c.age ticks).rst = false ↔ resets = 0) := by
  intro left pauses passed
  obtain ⟨b, hwaits, hdue, hfails, helapsed, hsent, halive⟩ :=
    awaits.waits nonzero run false ⟨fun hc => absurd hc opened, nofun⟩
  have hfewer := awaits.fewer
  have hvalid : Backoff.Valid cfg.rtTimeout.toNat MAX_RETX_ATTEMPTS b :=
    ⟨by omega, hwaits.sender.early, fun hc => by omega, fun hc => absurd (halive.symm.trans hc) nofun⟩
  have hpatience : Backoff.patience cfg.rtTimeout.toNat MAX_RETX_ATTEMPTS b = pauses := by
    rw [Backoff.patience, hdue, hfails]
  have haged := hwaits.age fun ms hms => Nat.lt_of_le_of_lt (short ms hms) clock
  have hcounted := Backoff.sent_run cfg.rtTimeout.toNat MAX_RETX_ATTEMPTS b ticks
  have hend := hvalid.run ticks
  refine ⟨fun hearly => ?_, fun hlate => ?_, ?_⟩
  · rw [haged.ended, (Backoff.not_ended_of_lt (by rw [hpatience, helapsed]; exact hearly)).1]
    exact halive
  · rw [haged.ended]
    refine Backoff.ended_of_le hvalid (by rw [hfails]; exact hfewer) pos short ?_
    rw [hpatience, hfails, helapsed]
    exact hlate
  · obtain ⟨resets, hout, hresets⟩ := haged.sent
    have hwithin := hend.within
    refine ⟨_, resets, hout, ?_, fun hended => ?_, hresets⟩
    · omega
    · have hspent := hend.spent (haged.ended ▸ hended)
      omega

/-- A SYN that nobody answers, under a clock of 10 seconds: 255 seconds are waited for at least, and
335 at most. -/
theorem silence_ends_syn :
    let c := (new {}).connect
    (c.age (List.replicate 25 10000)).rst = false ∧ (c.age (List.replicate 34 10000)).rst = true := by
  intro c
  have run : Runs.Reach step (fun _ _ => True) (new {}) ([Op.connect].foldl step (new {})) :=
    Runs.reach_foldl .start (by decide +kernel)
  obtain ⟨seg, holdest⟩ := Option.isSome_iff_exists.mp
    (show c.sender.outstandingBuffer.head?.isSome = true by decide +kernel)
  have awaits : Awaits seg c := ⟨by decide +kernel, holdest, by decide +kernel, by decide +kernel⟩
  have hshort : ∀ n, ∀ ms ∈ List.replicate n 10000, ms ≤ 10000 := fun n ms hms =>
    Nat.le_of_eq (List.eq_of_mem_replicate hms)
  obtain ⟨hearly, -⟩ := silence_ends (by decide) run awaits (by decide +kernel) (by decide) (by decide)
    (hshort 25)
  obtain ⟨-, hlate, -⟩ := silence_ends (by decide) run awaits (by decide +kernel) (by decide) (by decide)
    (hshort 34)
  exact ⟨hearly (by decide +kernel), hlate (by decide +kernel)⟩

/-- **A peer without room is asked for ever.** A reachable connection waits for an answer under a window of
zero, and has counted fewer than eight failures. However the time is cut into ticks of at most `δ`, it is not
reset, and what it sends is its oldest segment, each initial timeout once, up to an overrun each time. -/
theorem zero_window_waits (nonzero : cfg.rtTimeout ≠ 0) {ok : TCPConnection → Op → Prop}
    (run : Runs.Reach step ok (new cfg) c) (awaits : Awaits seg c) (closed : c.sender.receivedWindowSize = 0)
    {δ : Nat} (clock : δ < 2 ^ 63) {ticks : List Nat} (short : ∀ ms ∈ ticks, ms ≤ δ) :
    let passed := c.sender.timer.timePass + ticks.sum
    (c.age ticks).rst = false ∧
      ∃ n, (c.age ticks).segmentsOut = c.segmentsOut ++ List.replicate n (c.fillSegFields seg) ∧
        passed < c.sender.timer.rto + n * (cfg.rtTimeout.toNat + δ) ∧
        (n = 0 ∨ c.sender.timer.rto + n * cfg.rtTimeout.toNat ≤ passed + cfg.rtTimeout.toNat) := by
  intro passed
  obtain ⟨b, hwaits, hdue, hfails, helapsed, hsent, halive⟩ :=
    awaits.waits nonzero run true ⟨fun _ => rfl, fun _ => closed⟩
  have haged := hwaits.age fun ms hms => Nat.lt_of_le_of_lt (short ms hms) clock
  obtain ⟨n, hended, -, hcount, hless, hmore⟩ := Backoff.probes (by rw [hfails]; exact awaits.fewer)
    hwaits.sender.early hwaits.sender.paced.backed.nonzero short
  rw [hdue, helapsed] at hless hmore
  obtain ⟨resets, hout, hresets⟩ := haged.sent
  have halive' : (c.age ticks).rst = false := haged.ended.trans (hended.trans halive)
  refine ⟨halive', n, ?_, hless, hmore⟩
  rw [hout, hresets.mp halive', hcount, hsent, Nat.zero_add, List.replicate_zero, List.append_nil]

/-- A byte sent into a window of zero, under a clock of 10 seconds: it is still being sent after a day. -/
theorem zero_window_waits_day :
    let c := [.connect, .segmentReceived { header := { ack := true, ackno := ⟨1⟩, win := 0 } },
      .write [7]].foldl step (new {})
    (c.age (List.replicate 8640 10000)).rst = false := by
  intro c
  have run : Runs.Reach step (fun _ _ => True) (new {}) c := Runs.reach_foldl .start (by decide +kernel)
  obtain ⟨seg, holdest⟩ := Option.isSome_iff_exists.mp
    (show c.sender.outstandingBuffer.head?.isSome = true by decide +kernel)
  have awaits : Awaits seg c := ⟨by decide +kernel, holdest, by decide +kernel, by decide +kernel⟩
  exact (zero_window_waits (by decide) run awaits (by decide +kernel) (by decide : 10000 < 2 ^ 63)
    fun ms hms => Nat.le_of_eq (List.eq_of_mem_replicate hms)).1

end TCPConnection

end Sponge
