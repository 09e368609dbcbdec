import Sponge.Laws.Tcp.Sending

/-!
# Laws.Tcp.Filling — `fill_window` ends, and fills the window

`Ends` is the loop of `fill_window` as the source writes it, with no fuel: a turn, and again while the
turn says so. Every sender whose FIN is its last segment comes to an end of it, and `fillWindow` is
where (`ends_iff`).

`Filled` is what happens on the way. The segments queued carry the front of the buffer, each byte once;
each fits what is left of the window; and the one that empties the buffer has the FIN if the input has
ended and one more number fits. Where the loop stops there is nothing to send (`Silent`).
-/

namespace Sponge

namespace TCPSender

variable {s s' : TCPSender}

/-- There is nothing to send: the SYN is out, and the window is closed, or the stream has no byte and
no end to tell of. -/
def Silent (s : TCPSender) : Prop :=
  s.synSent = true ∧
    (s.peerWindowSize = 0 ∨ s.stream.buf = [] ∧ (s.stream.isEnd = true → s.finSent = true))

instance (s : TCPSender) : Decidable s.Silent := inferInstanceAs (Decidable (_ ∧ _))

theorem fillWindow_of_silent (finLast : s.FinLast) (silent : s.Silent) : s.fillWindow = s := by
  rw [fillWindow_eq finLast]
  rcases fillTurn_cases finLast with ⟨heq, -⟩ | ⟨data, fin, go, -, hfin, hsend, -⟩
  · rw [heq]
    rfl
  · exfalso
    have hpos := hsend.length_pos
    have hfits : (s.fresh data fin).lengthInSequenceSpace ≤ s.peerWindowSize := by
      refine hsend.fits.resolve_right fun hc => ?_
      rw [silent.1] at hc
      cases hc.1
    rcases silent.2 with hclosed | ⟨hbuf, hend⟩
    · omega
    · have hnil : data = [] := by
        rw [hsend.front, hbuf, List.take_nil]
      rcases hsend.something with hsyn | hdata | hends
      · rw [silent.1] at hsyn
        cases hsyn
      · exact hdata hnil
      · have heof := hsend.ends hends
        simp only [ByteStream.eof, Bool.and_eq_true] at heof
        have hsent := hend heof.2
        rw [hfin] at hsent
        cases hsent

/-- A turn that sends nothing had nothing to send. -/
theorem silent_of_fillTurn (syn : s.synSent = true) (idle : s.fillTurn = (s, false)) : s.Silent := by
  refine ⟨syn, ?_⟩
  by_contra hloud
  push Not at hloud
  obtain ⟨hopen, hrest⟩ := hloud
  unfold fillTurn fillCondition at idle
  by_cases hdue : s.finSent = false ∧ s.stream.eof = true
  · -- the FIN is due and has room
    rw [if_pos (by simp [hdue.1, hdue.2])] at idle
    have hlen : (s.fresh [] true).lengthInSequenceSpace = 1 := by
      rw [length_fresh, syn]
      rfl
    dsimp only at idle
    rw [if_pos rfl, fillBody_eq, hdue.2, hlen, if_neg (by omega), if_neg (by omega)] at idle
    exact Bool.noConfusion (congrArg Prod.snd idle)
  · rw [if_neg (by simpa [syn] using hdue), getData_eq] at idle
    dsimp only at idle
    set data := s.stream.buf.take (min MAX_PAYLOAD_SIZE s.peerWindowSize) with hdata
    by_cases hnil : data = []
    · -- the window is open, so the stream is empty, and not at its end
      have hbuf : s.stream.buf = [] := by
        rcases List.take_eq_nil_iff.mp (hdata ▸ hnil) with hzero | hbuf
        · simp only [MAX_PAYLOAD_SIZE] at hzero
          omega
        · exact hbuf
      obtain ⟨hend, hfin⟩ := hrest hbuf
      exact hdue ⟨eq_false_of_ne_true hfin, by simp [ByteStream.eof, hbuf, hend]⟩
    · rw [if_pos (bne_iff_ne.mpr fun h => hnil (List.length_eq_zero_iff.mp h)), fillBody_eq] at idle
      have hlong : ∀ fin, ({ s with stream := s.stream.popOutput data.length }.fresh data
          fin).lengthInSequenceSpace ≠ 0 := fun fin hzero =>
        hnil ((length_fresh_eq_zero _ _ _).mp hzero).2.1
      rw [if_neg (hlong false), if_neg (hlong _)] at idle
      have hout := congrArg (fun p => p.1.segmentsOut) idle
      have hsent : ∀ seg : TCPSegment, s.segmentsOut ++ [seg] ≠ s.segmentsOut := fun seg hc =>
        List.cons_ne_nil _ _ (List.append_right_eq_self.mp hc)
      split at hout
      · exact hsent _ hout
      · exact hsent _ hout

/-! ## The loop without fuel -/

/-- The loop of `fill_window`, from the sender it starts with to the sender it leaves. -/
inductive Ends : TCPSender → TCPSender → Prop
  | stop {s : TCPSender} (stops : s.fillTurn.2 = false) : Ends s s.fillTurn.1
  | turn {s s' : TCPSender} (again : s.fillTurn.2 = true) (rest : Ends s.fillTurn.1 s') : Ends s s'

theorem ends_fillWindow (finLast : s.FinLast) : Ends s s.fillWindow := by
  -- every turn that goes on lowers the bound
  generalize hbound : s.fillBound = bound
  induction bound using Nat.strongRecOn generalizing s with
  | ind bound ih =>
    rw [fillWindow_eq finLast]
    split
    next again =>
      have hless := fillTurn_fillBound finLast again
      exact .turn again (ih _ (hbound ▸ hless) (fillTurn_finLast finLast) rfl)
    next hstop => exact .stop (eq_false_of_ne_true hstop)

/-- The loop has one end, and it is `fillWindow`. -/
theorem ends_iff (finLast : s.FinLast) : Ends s s' ↔ s' = s.fillWindow := by
  constructor
  · intro h
    induction h with
    | stop stops => rw [fillWindow_eq finLast, if_neg (by rw [stops]; exact Bool.false_ne_true)]
    | turn again _ ih => rw [fillWindow_eq finLast, if_pos again, ih (fillTurn_finLast finLast)]
  · rintro rfl
    exact ends_fillWindow finLast

/-! ## What the loop sends -/

/-- A sender that may fill its window: the FIN is its last segment, and as long as the SYN is not out
there is room for it. -/
structure Fillable (s : TCPSender) : Prop where
  finLast : s.FinLast
  room : s.synSent = false → 1 ≤ s.peerWindowSize
  unsent : s.synSent = false → s.bytesInFlight = 0 ∧ s.outstandingBuffer = []

/-- What filling the window of `s` queues, and where it leaves the sender. -/
structure Filled (s s' : TCPSender) (new : List TCPSegment) : Prop where
  queued : s'.segmentsOut = s.segmentsOut ++ new
  outstanding : s'.outstandingBuffer = s.outstandingBuffer ++ new
  popped : s.stream.buf = new.flatMap (·.payload.str) ++ s'.stream.buf
  counted : s'.stream.bytesRead = s.stream.bytesRead + (new.flatMap (·.payload.str)).length
  each : ∀ before seg after, new = before ++ seg :: after →
    seg.payload.str.length ≤ MAX_PAYLOAD_SIZE ∧ 1 ≤ seg.lengthInSequenceSpace ∧
      seg.lengthInSequenceSpace ≤ s.peerWindowSize - seqLen before
  fin : ∀ before seg after, new = before ++ seg :: after → seg.payload.str ≠ [] →
    s.stream.inputEnded = true → (before ++ [seg]).flatMap (·.payload.str) = s.stream.buf →
    seqLen before + seg.payload.str.length < s.peerWindowSize → seg.header.fin = true

theorem filled_self (s : TCPSender) : Filled s s [] := by
  have hnone : ∀ before (seg : TCPSegment) after, [] ≠ before ++ seg :: after := fun before seg after hc =>
    List.cons_ne_nil _ _ (List.append_eq_nil_iff.mp hc.symm).2
  exact ⟨(List.append_nil _).symm, (List.append_nil _).symm, rfl, rfl,
    fun _ _ _ hc => absurd hc (hnone _ _ _), fun _ _ _ hc => absurd hc (hnone _ _ _)⟩

theorem Fillable.send {data : Bytes} {fin : Bool} (sendable : s.Sendable data fin) :
    (s.send data fin).Fillable :=
  ⟨send_finLast sendable, nofun, nofun⟩

/-- A segment that takes all that is buffered behind the end of the input carries the FIN, if there is room
for it. -/
theorem Sendable.fin_attached {data : Bytes} {fin again : Bool} (sendable : s.Sendable data fin)
    (finFits : s.FinFits data fin again) (nonempty : data ≠ []) (ended : s.stream.inputEnded = true)
    (all : data = s.stream.buf) (room : data.length < s.peerWindowSize) : fin = true := by
  have hnil : (s.stream.popOutput data.length).buf = [] := by
    rw [ByteStream.popOutput_buf, all, List.drop_length]
  have heof : (s.stream.popOutput data.length).eof = true := by
    simp only [ByteStream.eof, Bool.and_eq_true, List.isEmpty_iff]
    exact ⟨hnil, ended⟩
  have hsyn : s.synSent = true := by
    by_contra hc
    exact nonempty (sendable.synAlone (eq_false_of_ne_true hc))
  have hgo : again = true := by
    rw [finFits.goesOn, heof, length_fresh, hsyn]
    simp only [if_true]
    omega
  rw [finFits.attached, hgo, heof]
  rfl

/-- One segment ahead of a filling. -/
theorem Filled.cons (fillable : s.Fillable) {data : Bytes} {fin again : Bool}
    (sendable : s.Sendable data fin) (finFits : s.FinFits data fin again)
    (short : data.length ≤ MAX_PAYLOAD_SIZE) {new : List TCPSegment}
    (h : Filled (s.send data fin) s' new) : Filled s s' (s.fresh data fin :: new) := by
  have hdata : (s.fresh data fin).payload.str = data := Buffer.str_ofString data
  have hbuf : s.stream.buf = data ++ (s.send data fin).stream.buf := by
    calc s.stream.buf = s.stream.buf.take data.length ++ s.stream.buf.drop data.length :=
          (List.take_append_drop _ _).symm
      _ = data ++ (s.stream.popOutput data.length).buf := by
          rw [← sendable.front, ByteStream.popOutput_buf]
  have hfirst : (s.fresh data fin).lengthInSequenceSpace ≤ s.peerWindowSize := sendable.within fillable.room
  have hwindow : (s.send data fin).peerWindowSize =
      s.peerWindowSize - (s.fresh data fin).lengthInSequenceSpace := rfl
  refine ⟨?_, ?_, ?_, ?_, ?_, ?_⟩
  · rw [h.queued]
    exact List.append_assoc _ _ _
  · rw [h.outstanding]
    exact List.append_assoc _ _ _
  · rw [hbuf, h.popped, List.flatMap_cons, hdata, List.append_assoc]
  · have hread : (s.send data fin).stream.bytesRead = s.stream.bytesRead + data.length :=
      sendable.totalBytesRead
    rw [h.counted, hread, List.flatMap_cons, hdata, List.length_append, Nat.add_assoc]
  · intro before seg after hcut
    cases before with
    | nil =>
      obtain ⟨rfl, -⟩ := List.cons_eq_cons.mp hcut
      rw [hdata]
      exact ⟨short, sendable.length_pos, hfirst⟩
    | cons first before =>
      obtain ⟨rfl, htail⟩ := List.cons_eq_cons.mp hcut
      rw [seqLen_cons, ← Nat.sub_sub, ← hwindow]
      exact h.each before seg after htail
  · intro before seg after hcut hsome hend hall hroom
    cases before with
    | nil =>
      obtain ⟨rfl, -⟩ := List.cons_eq_cons.mp hcut
      rw [hdata] at hsome hroom
      simp only [List.nil_append, List.flatMap_cons, List.flatMap_nil, List.append_nil, hdata] at hall
      rw [seqLen_nil, Nat.zero_add] at hroom
      exact sendable.fin_attached finFits hsome hend hall hroom
    | cons first before =>
      obtain ⟨rfl, htail⟩ := List.cons_eq_cons.mp hcut
      refine h.fin before seg after htail hsome hend ?_ ?_
      · rw [List.cons_append, List.flatMap_cons, hdata, hbuf] at hall
        exact List.append_cancel_left hall
      · rw [seqLen_cons] at hroom
        omega

/-- A turn that stops has nothing left to send, or has filled the window. -/
theorem Fillable.stop_silent (h : s.Fillable) (stops : s.fillTurn.2 = false) : s.fillTurn.1.Silent := by
  rcases fillTurn_cases h.finLast with ⟨heq, hsyn⟩ | ⟨data, fin, again, heq, -, hsend, hfits, -⟩
  · rw [heq]
    exact silent_of_fillTurn hsyn heq
  · rw [heq] at stops ⊢
    have hstop : again = false := stops
    subst hstop
    -- the FIN was given up, so the segment without it takes the whole window
    have hfin : fin = false := hfits.attached
    have hfull := mt hfits.goesOn.mpr Bool.false_ne_true
    have hroom := hsend.within h.room
    refine ⟨rfl, .inl ?_⟩
    show s.peerWindowSize - (s.fresh data fin).lengthInSequenceSpace = 0
    have hone : (s.fresh data (s.stream.popOutput data.length).eof).lengthInSequenceSpace ≤
        (s.fresh data fin).lengthInSequenceSpace + 1 := by
      rw [length_fresh, length_fresh, hfin]
      cases (s.stream.popOutput data.length).eof <;> simp
    omega

/-- **The loop fills the window**: it ends silent, and what it queued on the way is as it should be. -/
theorem Fillable.ends (h : s.Fillable) (ends : Ends s s') : s'.Silent ∧ ∃ new, Filled s s' new := by
  induction ends with
  | @stop s stops =>
    refine ⟨h.stop_silent stops, ?_⟩
    rcases fillTurn_cases h.finLast with ⟨heq, -⟩ | ⟨data, fin, again, heq, -, hsend, hfits, hshort⟩
    · rw [heq]
      exact ⟨[], filled_self s⟩
    · rw [heq]
      exact ⟨[s.fresh data fin], (filled_self _).cons h hsend hfits hshort⟩
  | @turn s s' again _ ih =>
    rcases fillTurn_cases h.finLast with ⟨heq, -⟩ | ⟨data, fin, goOn, heq, -, hsend, hfits, hshort⟩
    · rw [heq] at again
      cases again
    · rw [heq] at ih
      obtain ⟨hsilent, new, hfilled⟩ := ih (Fillable.send hsend)
      exact ⟨hsilent, _, hfilled.cons h hsend hfits hshort⟩

/-! ## Every sender may fill its window -/

theorem fillable_new (capacity : Nat) (retxTimeout : UInt16) (isn : WrappingInt32) :
    (new capacity retxTimeout isn).Fillable :=
  ⟨nofun, fun _ => Nat.le_refl 1, fun _ => ⟨rfl, rfl⟩⟩

theorem Fillable.fillWindow (h : s.Fillable) : s.fillWindow.Fillable := by
  obtain ⟨-, -, hfillable⟩ := fillLoop_rule (P := fun _ s => s.Fillable) (fun _ _ h => h.finLast)
    (fun _ _ _ _ _ _ hsend => Fillable.send hsend) (s.fillBound + 1) [] h
  exact hfillable

/-- Before the SYN an acknowledgment finds nothing in flight, so its window is open. -/
theorem Fillable.acceptAck (h : s.Fillable) (absAckno : Nat) (windowSize : UInt16) :
    (s.acceptAck absAckno windowSize).Fillable := by
  have hnone : s.synSent = false →
      (s.acceptAck absAckno windowSize).bytesInFlight = 0 ∧
        (s.acceptAck absAckno windowSize).outstandingBuffer = [] := by
    intro hsyn
    obtain ⟨hflight, hempty⟩ := h.unsent hsyn
    simp only [TCPSender.acceptAck, hempty, ackLoop, hflight, and_self]
  refine ⟨h.finLast, fun hsyn => ?_, hnone⟩
  show 1 ≤ (if windowSize = 0 then 1 else windowSize.toNat) -
    (s.acceptAck absAckno windowSize).bytesInFlight
  rw [(hnone hsyn).1]
  split
  · exact Nat.le_refl 1
  next hne =>
    exact Nat.pos_of_ne_zero fun hc => hne (UInt16.toNat_inj.mp hc)

theorem Fillable.ackReceived (h : s.Fillable) (ackno : WrappingInt32) (windowSize : UInt16) :
    (s.ackReceived ackno windowSize).Fillable := by
  rw [ackReceived_eq]
  split
  · exact ⟨h.finLast, h.room, h.unsent⟩
  · exact (h.acceptAck _ windowSize).fillWindow

theorem Fillable.tick (h : s.Fillable) (ms : Nat) : (s.tick ms).Fillable := by
  rw [tick_frame]
  exact ⟨h.finLast, h.room, h.unsent⟩

end TCPSender

namespace Sending

variable {s : Sending} {capacity : Nat} {retxTimeout : UInt16} {isn : WrappingInt32}

theorem fillable_step (h : s.sender.Fillable) (op : Op) : (s.step op).sender.Fillable := by
  cases op with
  | write data => exact ⟨h.finLast.write data, h.room, h.unsent⟩
  | endInput => exact ⟨h.finLast.endInput, h.room, h.unsent⟩
  | fillWindow => exact h.fillWindow
  | ack ackno windowSize => exact h.ackReceived ackno windowSize
  | tick ms => exact h.tick ms
  | sendEmpty => exact ⟨h.finLast, h.room, h.unsent⟩

theorem fillable_of_run {ok : Sending → Op → Prop}
    (run : Runs.Reach step ok (new capacity retxTimeout isn) s) : s.sender.Fillable :=
  run.invariant (fun s => s.sender.Fillable) (TCPSender.fillable_new capacity retxTimeout isn)
    fun _ op h _ => fillable_step h op

/-- **`fill_window` terminates and fills the window completely**, from every state of every run: the
source's loop comes to an end, and only there; the window is closed behind it, or the buffer is empty
and the end of the input told; and the segments it queued are as `Filled` says. -/
theorem fill_window_fills (run : Runs.Reach step (fun _ _ => True) (new capacity retxTimeout isn) s) :
    (∀ s', TCPSender.Ends s.sender s' ↔ s' = s.sender.fillWindow) ∧
      (s.sender.fillWindow.peerWindowSize = 0 ∨
        s.sender.fillWindow.stream.bufferEmpty = true ∧
          (s.sender.fillWindow.stream.inputEnded = false ∨ s.sender.fillWindow.finSent = true)) ∧
      ∃ new, TCPSender.Filled s.sender s.sender.fillWindow new := by
  have h := fillable_of_run run
  obtain ⟨hsilent, hfilled⟩ := h.ends (TCPSender.ends_fillWindow h.finLast)
  refine ⟨fun s' => TCPSender.ends_iff h.finLast, hsilent.2.imp_right fun ⟨hbuf, hfin⟩ => ?_, hfilled⟩
  refine ⟨List.isEmpty_iff.mpr hbuf, ?_⟩
  cases hend : s.sender.fillWindow.stream.isEnd with
  | false => exact .inl hend
  | true => exact .inr (hfin hend)

/-- Three bytes and the end of the input in a window of four: one segment, with the FIN. -/
theorem fill_window_fills_four :
    let s := [.fillWindow, .ack ⟨8⟩ 4, .write [1, 2, 3], .endInput].foldl step (new 4 1 ⟨7⟩)
    TCPSender.Ends s.sender s.sender.fillWindow ∧
      (∃ new, TCPSender.Filled s.sender s.sender.fillWindow new) ∧
      s.sender.fillWindow.finSent = true := by
  intro s
  obtain ⟨hends, -, hfilled⟩ := fill_window_fills (s := s) (Runs.reach_foldl .start (by decide))
  exact ⟨(hends _).mpr rfl, hfilled, by decide +kernel⟩

end Sending

end Sponge
