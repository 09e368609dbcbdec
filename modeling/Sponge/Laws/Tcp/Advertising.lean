import Sponge.Laws.Tcp.Calls

/-!
# Laws.Tcp.Advertising — the windows a connection advertises

Every segment of a connection advertises a right edge: its acknowledgment number, as an absolute one,
plus its window. An `Advertising` is a connection with the log of what it has advertised since the SYN
came in. The receiver's own right edge never moves left, whatever arrives and however it is read
(`TCPReceiver.segmentReceived_rightEdge`); the advertised one is the same edge as long as the window fits the
16 bits of the header field.
-/

namespace Sponge

/-- A segment sent, with the absolute acknowledgment number and the free capacity of the receiver it was
filled in from. -/
structure Advert where
  seg : TCPSegment
  absAckno : Nat
  free : Nat

/-- The right edge a segment advertises. -/
def Advert.edge (a : Advert) : Nat := a.absAckno + a.seg.header.win.toNat

/-- A connection, and what it has advertised since the SYN came in. -/
structure Advertising where
  conn : TCPConnection
  log : List Advert

namespace Advertising

open TCPConnection (Op)

def new (cfg : TCPConfig) : Advertising := ⟨TCPConnection.new cfg, []⟩

/-- What a segment advertises that leaves a connection. A call sends behind everything it does to the
receiver but marking its stream as ended, so the receiver is the one behind the call. -/
def advert (c : TCPConnection) (seg : TCPSegment) : Option Advert :=
  if c.receiver.receivedSyn = true ∧ seg.header.rst = false then
    some ⟨seg, c.receiver.ackNo64, c.receiver.windowSize⟩
  else none

def step (s : Advertising) (op : Op) : Advertising :=
  let next := s.conn.step op
  { conn := next
    log := s.log ++ (next.segmentsOut.drop s.conn.segmentsOut.length).filterMap (advert next) }

variable {s : Advertising}

/-- An advertisement says what the receiver says. -/
structure Truthful (r : TCPReceiver) (a : Advert) : Prop where
  ack : a.seg.header.ack = true
  ackno : a.seg.header.ackno = wrap a.absAckno r.isn
  below : a.seg.header.win.toNat ≤ a.free
  edge : a.edge ≤ r.rightEdge

/-- What is kept from call to call. -/
structure Kept (capacity : Nat) (s : Advertising) : Prop where
  ready : s.conn.Ready
  sized : s.conn.receiver.Sized
  capacity_eq : s.conn.receiver.capacity = capacity
  silent : s.conn.receiver.receivedSyn = false → s.log = []
  truthful : ∀ a ∈ s.log, Truthful s.conn.receiver a
  sorted : s.log.Pairwise fun a b => a.edge ≤ b.edge

theorem kept_new (cfg : TCPConfig) : Kept cfg.recvCapacity (new cfg) where
  ready := TCPConnection.ready_new cfg
  sized := TCPReceiver.sized_new _
  capacity_eq := rfl
  silent := fun _ => rfl
  truthful := fun _ ha => absurd ha List.not_mem_nil
  sorted := .nil

/-- What a segment filled in from a receiver advertises, if the window fits the field. -/
theorem advert_fill {c : TCPConnection} {seg : TCPSegment} {a : Advert}
    (fits : c.receiver.windowSize < 2 ^ 16) (h : advert c (c.fillSegFields seg) = some a) :
    Truthful c.receiver a ∧ a.edge = c.receiver.rightEdge := by
  unfold advert at h
  split at h
  next hc =>
    obtain ⟨hack, hackno⟩ := c.fillSegFields_ackno hc.1 seg
    have hwin : (c.fillSegFields seg).header.win.toNat = c.receiver.windowSize := by
      rw [c.fillSegFields_win seg, Nat.toUInt16_eq, UInt16.toNat_ofNat', Nat.mod_eq_of_lt fits]
    cases h
    have hedge : Advert.edge ⟨c.fillSegFields seg, c.receiver.ackNo64, c.receiver.windowSize⟩ =
        c.receiver.rightEdge := congrArg (c.receiver.ackNo64 + ·) hwin
    exact ⟨⟨hack, hackno, Nat.le_of_eq hwin, Nat.le_of_eq hedge⟩, hedge⟩
  next => cases h

/-- A reset advertises nothing. -/
theorem advert_rst (c : TCPConnection) : advert c TCPConnection.rstSegment = none :=
  if_neg fun hc => Bool.noConfusion hc.2

/-- **No operation moves the receiver's right edge to the left**, or changes its initial number, once the
SYN is in. -/
theorem receives_rightEdge {r : TCPReceiver} (sized : r.Sized) (syn : r.receivedSyn = true)
    (few : r.rightEdge + 1 < 2 ^ 64) (op : Op) :
    r.rightEdge ≤ (TCPConnection.receives r op).rightEdge ∧
      (TCPConnection.receives r op).isn = r.isn := by
  cases op with
  | segmentReceived seg =>
    unfold TCPConnection.receives
    dsimp only
    split
    · exact ⟨Nat.le_refl _, rfl⟩
    · exact ⟨r.segmentReceived_rightEdge sized syn few seg, r.segmentReceived_isn syn seg⟩
  | read len => exact ⟨r.popOutput_rightEdge len, rfl⟩
  | _ => exact ⟨Nat.le_refl _, rfl⟩

/-- No operation changes a receiver's capacity, or forgets its SYN. -/
theorem receives_frame {r : TCPReceiver} (sized : r.Sized) (op : Op) :
    (TCPConnection.receives r op).Sized ∧
      (TCPConnection.receives r op).capacity = r.capacity ∧
      (r.receivedSyn = true → (TCPConnection.receives r op).receivedSyn = true) := by
  cases op with
  | segmentReceived seg =>
    unfold TCPConnection.receives
    dsimp only
    split
    · exact ⟨sized, rfl, id⟩
    · obtain ⟨hcapacity, hsyn⟩ := r.segmentReceived_frame seg
      exact ⟨sized.segmentReceived seg, hcapacity, fun h => by rw [hsyn, h, Bool.true_or]⟩
  | read len => exact ⟨sized, rfl, id⟩
  | _ => exact ⟨sized, rfl, id⟩

/-- The acknowledgment number is nowhere near the end of 64 bits. -/
def Few (s : Advertising) (_ : Op) : Prop := s.conn.receiver.ackNo64 < 2 ^ 63

instance (s : Advertising) (op : Op) : Decidable (Few s op) := inferInstanceAs (Decidable (_ < _))

/-- The receiver of a connection moves on: it keeps its capacity, and once the SYN is in, its initial number
and what lies left of its edge. -/
structure Widens (r r' : TCPReceiver) : Prop where
  sized : r'.Sized
  capacity : r'.capacity = r.capacity
  syn : r.receivedSyn = true → r'.receivedSyn = true
  edge : r.receivedSyn = true → r.rightEdge ≤ r'.rightEdge
  isn : r.receivedSyn = true → r'.isn = r.isn

theorem Truthful.widens {r r' : TCPReceiver} {a : Advert} (h : Truthful r a) (widens : Widens r r')
    (syn : r.receivedSyn = true) : Truthful r' a :=
  ⟨h.ack, widens.isn syn ▸ h.ackno, h.below, Nat.le_trans h.edge (widens.edge syn)⟩

/-- **No call moves the receiver's edge to the left.** -/
theorem Kept.widens {capacity : Nat} (h : Kept capacity s) (narrow : capacity < 2 ^ 16) {op : Op}
    (few : Few s op) : Widens s.conn.receiver (s.conn.step op).receiver := by
  obtain ⟨-, ⟨r, hbefore, hafter⟩, -⟩ := h.ready.stepped (s.conn.call_step op)
  obtain ⟨-, hwindow, hack, hsyn, hisn, hcapacity, hsized⟩ := hbefore.same
  obtain ⟨-, hwindow', hack', hsyn', hisn', hcapacity', hsized'⟩ := hafter.same
  obtain ⟨hfsized, hfcapacity, hfsyn⟩ := receives_frame (hsized h.sized) op
  have hedge : r.rightEdge = s.conn.receiver.rightEdge := by
    unfold TCPReceiver.rightEdge
    rw [hack, hwindow]
  have hedge' : (s.conn.step op).receiver.rightEdge = (TCPConnection.receives r op).rightEdge := by
    unfold TCPReceiver.rightEdge
    rw [hack', hwindow']
  have hsmall : r.rightEdge + 1 < 2 ^ 64 := by
    have hle := h.sized.windowSize_eq
    rw [h.capacity_eq] at hle
    rw [hedge, TCPReceiver.rightEdge]
    unfold Few at few
    omega
  have hgrow := fun hin => receives_rightEdge (hsized h.sized) (hsyn.trans hin) hsmall op
  refine ⟨hsized' hfsized, ?_, fun hin => ?_, fun hin => ?_, fun hin => ?_⟩
  · rw [hcapacity', hfcapacity, hcapacity]
  · rw [hsyn', hfsyn (hsyn.trans hin)]
  · rw [← hedge, hedge']
    exact (hgrow hin).1
  · rw [hisn', (hgrow hin).2, hisn]

/-- **What a call advertises**: the edge of the receiver behind it, if the SYN is in. -/
theorem Kept.adverts {capacity : Nat} (h : Kept capacity s) {op : Op}
    (fits : (s.conn.step op).receiver.windowSize < 2 ^ 16) :
    ∃ new, (s.step op).log = s.log ++ new ∧
      ∀ a ∈ new, (s.conn.step op).receiver.receivedSyn = true ∧
        Truthful (s.conn.step op).receiver a ∧ a.edge = (s.conn.step op).receiver.rightEdge := by
  obtain ⟨-, -, sent, hout, hsent⟩ := h.ready.stepped (s.conn.call_step op)
  refine ⟨sent.filterMap (advert (s.conn.step op)), ?_, ?_⟩
  · unfold Advertising.step
    dsimp only
    rw [hout, List.drop_left]
  · intro a ha
    obtain ⟨seg, hseg, hadvert⟩ := List.mem_filterMap.mp ha
    have hsyn : (s.conn.step op).receiver.receivedSyn = true := by
      by_contra hc
      rw [advert, if_neg fun hin => hc hin.1] at hadvert
      cases hadvert
    rcases hsent seg hseg with rfl | ⟨queued, rfl⟩
    · rw [advert_rst] at hadvert
      cases hadvert
    · exact ⟨hsyn, advert_fill fits hadvert⟩

/-- **A call keeps the log in order.** -/
theorem Kept.step {capacity : Nat} (h : Kept capacity s) (narrow : capacity < 2 ^ 16) {op : Op}
    (few : Few s op) : Kept capacity (s.step op) := by
  have hwidens := h.widens narrow few
  have hcapacity := hwidens.capacity.trans h.capacity_eq
  have hfits : (s.conn.step op).receiver.windowSize < 2 ^ 16 := by
    have hle := hwidens.sized.windowSize_eq
    rw [hcapacity] at hle
    omega
  obtain ⟨new, hlog, hnew⟩ := h.adverts hfits
  have hold : ∀ a ∈ s.log, s.conn.receiver.receivedSyn = true := by
    intro a ha
    by_contra hc
    rw [h.silent (eq_false_of_ne_true hc)] at ha
    cases ha
  refine ⟨h.ready.step op, hwidens.sized, hcapacity, fun hnone => ?_, fun a ha => ?_, ?_⟩
  · replace hnone : (s.conn.step op).receiver.receivedSyn = false := hnone
    rw [hlog, List.append_eq_nil_iff, List.eq_nil_iff_forall_not_mem, List.eq_nil_iff_forall_not_mem]
    constructor
    · intro a ha
      rw [hwidens.syn (hold a ha)] at hnone
      cases hnone
    · intro a ha
      rw [(hnew a ha).1] at hnone
      cases hnone
  · rw [hlog] at ha
    rcases List.mem_append.mp ha with ha | ha
    · exact (h.truthful a ha).widens hwidens (hold a ha)
    · exact (hnew a ha).2.1
  · rw [hlog, List.pairwise_append]
    refine ⟨h.sorted, ?_, fun a ha b hb => ?_⟩
    · refine List.pairwise_of_forall_mem_list fun a ha b hb => ?_
      exact Nat.le_of_eq ((hnew a ha).2.2.trans (hnew b hb).2.2.symm)
    · rw [(hnew b hb).2.2]
      exact Nat.le_trans (h.truthful a ha).edge (hwidens.edge (hold a ha))

/-- **The advertised right edge never moves left.** In every run of a connection whose receive capacity
fits the header's window field: what it advertises since the SYN came in never decreases, whatever
segments arrive and however the inbound stream is read, and no window is larger than the capacity that
was free. -/
theorem edge_never_retreats {cfg : TCPConfig} (narrow : cfg.recvCapacity < 2 ^ 16)
    (run : Runs.Reach step Few (new cfg) s) :
    s.log.Pairwise (fun a b => a.edge ≤ b.edge) ∧
      ∀ a ∈ s.log, a.seg.header.win.toNat ≤ a.free ∧ a.seg.header.ack = true ∧
        a.seg.header.ackno = wrap a.absAckno s.conn.receiver.isn := by
  have h : Kept cfg.recvCapacity s :=
    run.invariant (Kept cfg.recvCapacity) (kept_new cfg) fun _ _ h few => h.step narrow few
  refine ⟨h.sorted, fun a ha => ?_⟩
  obtain ⟨hack, hackno, hbelow, -⟩ := h.truthful a ha
  exact ⟨hbelow, hack, hackno⟩

/-- Two bytes arrive one by one, and are read between the advertisements. -/
theorem edge_never_retreats_two :
    let syn : TCPSegment := { header := { seqno := ⟨7⟩, syn := true } }
    let byte (n : UInt32) : TCPSegment :=
      { header := { seqno := ⟨n⟩, ack := true, ackno := ⟨1⟩, win := 10 }, payload := Buffer.ofString [1] }
    let s := [.segmentReceived syn, .segmentReceived (byte 8), .read 1,
      .segmentReceived (byte 9)].foldl step (new { recvCapacity := 4 })
    s.log.Pairwise (fun a b => a.edge ≤ b.edge) ∧ s.log.map Advert.edge = [5, 5, 6] := by
  intro syn byte s
  have run : Runs.Reach step Few (new { recvCapacity := 4 }) s :=
    Runs.reach_foldl .start (by decide +kernel)
  exact ⟨(edge_never_retreats (by decide) run).1, by decide +kernel⟩

/-- **A capacity of 65536 bytes does not fit the field.** A byte arrives and is read: the advertised edge
falls from 65537 to 2. -/
theorem full_window_reads_zero :
    let syn : TCPSegment := { header := { seqno := ⟨7⟩, syn := true } }
    let byte : TCPSegment :=
      { header := { seqno := ⟨8⟩, ack := true, ackno := ⟨1⟩, win := 10 }, payload := Buffer.ofString [1] }
    let s := [.segmentReceived syn, .segmentReceived byte, .read 1,
      .segmentReceived byte].foldl step (new { recvCapacity := 65536 })
    Runs.Reach step Few (new { recvCapacity := 65536 }) s ∧
      s.log.map Advert.edge = [1, 65537, 2] ∧ ¬s.log.Pairwise fun a b => a.edge ≤ b.edge := by
  intro syn byte s
  exact ⟨Runs.reach_foldl .start (by decide +kernel), by decide +kernel, by decide +kernel⟩

end Advertising

end Sponge
