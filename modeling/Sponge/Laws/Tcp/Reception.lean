import Sponge.Laws.Stream.Reassembly
import Sponge.Laws.Tcp.Receiver

/-!
# Laws.Tcp.Reception — a receiver and a conformant peer, over whole runs

A conformant peer carves its segments from one stream `S`; the network may lose, repeat and reorder
them, and the reader takes bytes from the output in between. Two laws hold over every such run, each
under a condition on the single steps.

`ended_complete`: the output ends only when all of `S` is written, provided no FIN segment loses
payload to the window cut. The receiver hands the FIN flag on with the cut payload, and a cut one
ends the stream early (`cut_fin_ends_early`).

`reception_exact`: when every payload lies below the right edge and the edge is a 64-bit number, the
receiver has written the longest prefix received, acknowledges exactly that, and ends with the FIN.
An edge past `2 ^ 64` wraps, and the cut then drops payload inside the window
(`wrapped_edge_drops_payload`).
-/

namespace Sponge

open Word64 (add sub add_eq sub_eq)
open StreamReassembler (EndsWell)

/-- A receiver with what happened around it: the bytes read from its output, the stream indices
received, and whether a FIN came. -/
structure Reception where
  receiver : TCPReceiver
  readLog : Bytes
  received : Finset Nat
  finSeen : Bool

namespace Reception

/-- What happens to the receiver: a segment carved at index `i` arrives, or the reader reads. -/
inductive Op
  | segment (i : Nat) (seg : TCPSegment)
  | read (len : Nat)

def new (capacity : Nat) : Reception := ⟨TCPReceiver.new capacity, [], ∅, false⟩

def step (s : Reception) : Op → Reception
  | .segment i seg =>
    { s with
      receiver := s.receiver.segmentReceived seg
      received := s.received ∪ Finset.Ico i (i + seg.payload.str.length)
      finSeen := s.finSeen || seg.header.fin }
  | .read len =>
    { s with
      receiver := s.receiver.popOutput len
      readLog := s.readLog ++ (s.receiver.streamOut.read len).2 }

/-- The peer sends segments carved from `S`, and its first segment to arrive is the SYN. -/
def Peer (S : Bytes) (isn : WrappingInt32) (s : Reception) : Op → Prop
  | .segment i seg =>
    Carved S isn i seg ∧ (s.receiver.receivedSyn = false → seg.header.syn = true)
  | .read _ => True

instance (S : Bytes) (isn : WrappingInt32) (s : Reception) : (op : Op) → Decidable (Peer S isn s op)
  | .segment _ _ => inferInstanceAs (Decidable (_ ∧ (_ → _)))
  | .read _ => inferInstanceAs (Decidable True)

/-- The right edge of the window: the absolute acknowledgment number, which the first SYN sets to
one, plus the window. -/
def rightEdge (r : TCPReceiver) : Nat := (if r.receivedSyn then r.ackNo64 else 1) + r.windowSize

/-- Every payload byte of the segment lies below the right edge. -/
def InWindow (s : Reception) : Op → Prop
  | .segment i seg => seg.payload.str ≠ [] → i + seg.payload.str.length < rightEdge s.receiver
  | .read _ => True

instance (s : Reception) : (op : Op) → Decidable (InWindow s op)
  | .segment _ _ => inferInstanceAs (Decidable (_ → _))
  | .read _ => inferInstanceAs (Decidable True)

/-- The right edge is a 64-bit number when a payload arrives. -/
def EdgeFits (s : Reception) : Op → Prop
  | .segment _ seg => seg.payload.str ≠ [] → rightEdge s.receiver < 2 ^ 64
  | .read _ => True

instance (s : Reception) : (op : Op) → Decidable (EdgeFits s op)
  | .segment _ _ => inferInstanceAs (Decidable (_ → _))
  | .read _ => inferInstanceAs (Decidable True)

/-- A FIN segment with payload keeps all of it. -/
def FinKept (s : Reception) : Op → Prop
  | .segment i seg =>
    seg.header.fin = true → seg.payload.str ≠ [] → s.receiver.Keeps i seg
  | .read _ => True

instance (s : Reception) : (op : Op) → Decidable (FinKept s op)
  | .segment _ _ => inferInstanceAs (Decidable (_ → _ → _))
  | .read _ => inferInstanceAs (Decidable True)

variable {S : Bytes} {isn : WrappingInt32} {s : Reception}

/-! ## No early end -/

/-- The receiver ends the output itself only behind the FIN, when everything is written. -/
theorem endsWell_endStream {r : TCPReceiver} (h : EndsWell S r.reassembler)
    (started : TCPReceiver.Started S isn r) : EndsWell S r.endStream.reassembler := by
  have hwithin := started.safe.output.within
  unfold TCPReceiver.endStream
  split
  next hc =>
    refine ⟨h.noted, fun _ => ?_⟩
    have hlast := started.last hc.2
    rcases started.acked with hone | ⟨-, hall, -⟩
    · omega
    · exact hall
  next => exact h

/-- The receiver part of the law: in step with `S`, and ending well. -/
def Sound (S : Bytes) (isn : WrappingInt32) (r : TCPReceiver) : Prop :=
  (TCPReceiver.Fresh S r ∨ TCPReceiver.Started S isn r) ∧ EndsWell S r.reassembler

theorem sound_new (S : Bytes) (isn : WrappingInt32) (capacity : Nat) :
    Sound S isn (TCPReceiver.new capacity) :=
  ⟨.inl (TCPReceiver.fresh_new S capacity), .inr rfl, nofun⟩

theorem Sound.popOutput {r : TCPReceiver} (h : Sound S isn r) (len : Nat) :
    Sound S isn (r.popOutput len) :=
  ⟨h.1.imp (·.popOutput len) (·.popOutput len), h.2.noted, h.2.ended⟩

/-- A segment keeps the law when the window cut leaves a payload with the FIN alone. -/
theorem Sound.segment_uncut {r : TCPReceiver} (h : Sound S isn r) {i : Nat} {seg : TCPSegment}
    (carved : Carved S isn i seg) (first : r.receivedSyn = false → seg.header.syn = true)
    (uncut : seg.header.fin = true → seg.payload.str ≠ [] →
      (r.acceptSyn seg).cutToWindow seg = seg.payload.str)
    (short : S.length < 2 ^ 30) : Sound S isn (r.segmentReceived seg) := by
  have hphase : TCPReceiver.Fresh S r ∧ seg.header.syn = true ∨ TCPReceiver.Started S isn r :=
    h.1.imp_left fun hf => ⟨hf, first hf.noSyn⟩
  have hsyn := TCPReceiver.acceptSyn_keeps hphase carved
  have hpayload := TCPReceiver.acceptPayload_started hsyn carved short
  have hfin := TCPReceiver.noteFin_started hpayload carved short
  have hconsume := (TCPReceiver.consumeFin_started hfin short).1
  have hends : EndsWell S (r.acceptSyn seg).reassembler := by
    rw [TCPReceiver.acceptSyn_reassembler]
    exact h.2
  have hpushed : EndsWell S ((r.acceptSyn seg).acceptPayload seg).reassembler := by
    rcases TCPReceiver.acceptPayload_cases hsyn carved short with ⟨-, heq⟩ | ⟨hne, heq⟩
    · rw [heq]
      exact hends
    · rw [heq, TCPReceiver.advance_reassembler]
      refine hends.push (by omega) (TCPReceiver.push_safe hsyn carved short) fun hf => ?_
      rw [uncut hf hne]
      exact carved.finLast hf
  refine ⟨.inr (TCPReceiver.segmentReceived_started hphase carved short), ?_⟩
  refine endsWell_endStream ?_ hconsume
  rw [TCPReceiver.consumeFin_reassembler, TCPReceiver.noteFin_reassembler]
  exact hpushed

theorem Sound.segment {r : TCPReceiver} (h : Sound S isn r) {i : Nat} {seg : TCPSegment}
    (carved : Carved S isn i seg) (first : r.receivedSyn = false → seg.header.syn = true)
    (kept : seg.header.fin = true → seg.payload.str ≠ [] → r.Keeps i seg)
    (short : S.length < 2 ^ 30) : Sound S isn (r.segmentReceived seg) := by
  have hphase : TCPReceiver.Fresh S r ∧ seg.header.syn = true ∨ TCPReceiver.Started S isn r :=
    h.1.imp_left fun hf => ⟨hf, first hf.noSyn⟩
  have hsyn := TCPReceiver.acceptSyn_keeps hphase carved
  refine h.segment_uncut carved first (fun hf hne => ?_) short
  have hkept := (TCPReceiver.acceptSyn_keepsWindow hphase).mpr (kept hf hne)
  exact TCPReceiver.cutToWindow_eq hsyn carved short hkept

/-- **No early end of stream.** In every run of a conformant peer's segments and of reads in which
every FIN segment keeps its payload, an ended output holds all of `S`. -/
theorem ended_complete {capacity : Nat} (short : S.length < 2 ^ 30)
    (run : Runs.Reach step (fun s op => Peer S isn s op ∧ FinKept s op) (new capacity) s) :
    s.receiver.streamOut.inputEnded = true → s.receiver.streamOut.bytesWritten = S.length := by
  have h : Sound S isn s.receiver := by
    refine run.invariant (fun s => Sound S isn s.receiver) (sound_new S isn capacity) ?_
    intro s op ih ⟨peer, kept⟩
    cases op with
    | segment i seg => exact ih.segment peer.1 peer.2 kept short
    | read len => exact ih.popOutput len
  exact h.2.ended

/-- A SYN segment with the initial sequence number seven. -/
def synSegment (payload : Bytes) : TCPSegment :=
  { header := { seqno := ⟨7⟩, syn := true }, payload := Buffer.ofString payload }

/-- A data segment at index `i` of a stream with the initial sequence number seven. -/
def dataSegment (i : Nat) (payload : Bytes) (fin : Bool) : TCPSegment :=
  { header := { seqno := wrap (i + 1) ⟨7⟩, fin }, payload := Buffer.ofString payload }

/-- Three bytes through a window of two, with the FIN on the last byte alone. -/
theorem ended_complete_three :
    let s := [.segment 0 (synSegment []), .segment 0 (dataSegment 0 [1, 2] false), .read 1,
      .segment 2 (dataSegment 2 [3] true)].foldl step (new 2)
    s.receiver.streamOut.inputEnded = true ∧ s.receiver.streamOut.bytesWritten = 3 := by
  intro s
  have run : Runs.Reach step (fun s op => Peer [1, 2, 3] ⟨7⟩ s op ∧ FinKept s op) (new 2) s :=
    Runs.reach_foldl .start (by decide)
  have ended : s.receiver.streamOut.inputEnded = true := by decide
  exact ⟨ended, ended_complete (by decide) run ended⟩

/-- **A cut FIN segment ends the stream early.** Three bytes with a FIN meet a window of two: two
bytes are written and the output has ended. -/
theorem cut_fin_ends_early :
    let s := [.segment 0 (synSegment []), .segment 0 (dataSegment 0 [1, 2, 3] true)].foldl step
      (new 2)
    Runs.Reach step (Peer [1, 2, 3] ⟨7⟩) (new 2) s ∧
      s.receiver.streamOut.inputEnded = true ∧ s.receiver.streamOut.bytesWritten = 2 :=
  ⟨Runs.reach_foldl .start (by decide), by decide, by decide⟩

/-! ## Exact reception -/

/-- The payload stage is exact when the whole payload is kept and ends within the capacity. -/
theorem acceptPayload_exact {r : TCPReceiver} {C : Finset Nat} {i : Nat} {seg : TCPSegment}
    (exact : StreamReassembler.Exact S C r.reassembler) (started : TCPReceiver.Started S isn r)
    (carved : Carved S isn i seg) (short : S.length < 2 ^ 30)
    (kept : seg.payload.str ≠ [] → r.Keeps i seg)
    (fit : seg.payload.str ≠ [] → i + seg.payload.str.length ≤
      r.reassembler.output.totalBytesRead + r.reassembler.capacity) :
    let out := r.acceptPayload seg
    StreamReassembler.Exact S (C ∪ Finset.Ico i (i + seg.payload.str.length)) out.reassembler ∧
      out.reassembler.output.totalBytesRead = r.reassembler.output.totalBytesRead ∧
      out.reassembler.capacity = r.reassembler.capacity ∧
      (out.reassembler.eofIndex = r.reassembler.eofIndex ∨ seg.header.fin = true) ∧
      (out.reassembler.output.isEnd = true → r.reassembler.output.isEnd = true ∨
        out.reassembler.expectIdx = out.reassembler.eofIndex) ∧
      out.capacity = r.capacity ∧ out.receivedFin = r.receivedFin := by
  intro out
  rcases TCPReceiver.acceptPayload_cases started carved short with ⟨hnil, heq⟩ | ⟨hne, heq⟩
  · rw [show out = r from heq, hnil, List.length_nil, Nat.add_zero, Finset.Ico_self,
      Finset.union_empty]
    exact ⟨exact, rfl, rfl, .inl rfl, .inl, rfl, rfl⟩
  · rw [TCPReceiver.cutToWindow_eq started carved short (kept hne)] at heq
    obtain ⟨hexact, heof, hend⟩ := StreamReassembler.pushSubstring_exact exact carved.excerpt hne
      (by omega) (fit hne) carved.finLast
    have hread := StreamReassembler.pushSubstring_totalBytesRead r.reassembler seg.payload.str i
      seg.header.fin
    have hcapacity := StreamReassembler.pushSubstring_capacity r.reassembler seg.payload.str i
      seg.header.fin
    rw [show out = _ from heq, TCPReceiver.advance_reassembler]
    generalize r.reassembler.pushSubstring seg.payload.str i seg.header.fin = pushed at *
    refine ⟨hexact, hread, hcapacity, ?_, hend.mp, rfl, rfl⟩
    rw [heof]
    cases seg.header.fin with
    | false => exact .inl rfl
    | true => exact .inr rfl

/-- The receiver is exact for the indices received, in step with the stream, and has ended exactly
when everything and the FIN are in. -/
structure Conforms (S : Bytes) (isn : WrappingInt32) (capacity : Nat) (s : Reception) : Prop where
  exact : StreamReassembler.Exact S s.received s.receiver.reassembler
  phase : TCPReceiver.Fresh S s.receiver ∨ TCPReceiver.Started S isn s.receiver ∧
    (s.receiver.receivedFin = true →
      s.receiver.reassembler.output.totalBytesWritten = S.length →
      s.receiver.ackNo64 = S.length + 2)
  fin : s.receiver.receivedFin = s.finSeen
  noted : s.receiver.reassembler.eofIndex = 2 ^ 64 - 1 ∨ s.receiver.receivedFin = true
  ended : s.receiver.reassembler.output.isEnd = true ↔
    s.receiver.reassembler.output.totalBytesWritten = S.length ∧ s.receiver.receivedFin = true
  cap : s.receiver.capacity = capacity ∧ s.receiver.reassembler.capacity = capacity
  log : s.readLog = S.take s.receiver.reassembler.output.totalBytesRead

theorem conforms_new (S : Bytes) (isn : WrappingInt32) (capacity : Nat) :
    Conforms S isn capacity (new capacity) where
  exact := StreamReassembler.exact_new S capacity
  phase := .inl (TCPReceiver.fresh_new S capacity)
  fin := rfl
  noted := .inl rfl
  ended := ⟨nofun, nofun⟩
  cap := ⟨rfl, rfl⟩
  log := rfl

theorem Conforms.read {capacity : Nat} (h : Conforms S isn capacity s) (len : Nat) :
    Conforms S isn capacity (s.step (.read len)) where
  exact := h.exact.popOutput len
  phase := h.phase.imp (·.popOutput len) fun ⟨hs, hack⟩ => ⟨hs.popOutput len, hack⟩
  fin := h.fin
  noted := h.noted
  ended := h.ended
  cap := h.cap
  log := h.exact.safe.output.read_log h.log len

/-- A payload below a 64-bit right edge is kept whole and ends within the capacity. -/
theorem Conforms.window {capacity : Nat} (h : Conforms S isn capacity s) {i : Nat}
    {seg : TCPSegment} (carved : Carved S isn i seg)
    (below : i + seg.payload.str.length < rightEdge s.receiver)
    (fits : rightEdge s.receiver < 2 ^ 64) :
    s.receiver.Keeps i seg ∧ i + seg.payload.str.length ≤
      s.receiver.reassembler.output.totalBytesRead + s.receiver.reassembler.capacity := by
  have hwithin := carved.within
  have hwritten := h.exact.safe.output.written
  have hfits := s.receiver.reassembler.output.fits
  have hcap := h.exact.sameCap
  have hcaps := h.cap
  have hseqno : seg.absSeqno i ≤ i + 1 := by
    unfold TCPSegment.absSeqno
    split <;> omega
  have hwindow : s.receiver.windowSize =
      s.receiver.capacity - s.receiver.reassembler.output.buf.length := by
    unfold TCPReceiver.windowSize TCPReceiver.streamOut
    rw [ByteStream.bytesNotRead_eq]
  unfold rightEdge at below fits
  refine ⟨.inr ?_, ?_⟩
  · rw [add_eq fits]
    omega
  · rcases h.phase with hfresh | ⟨hstarted, -⟩
    · rw [if_neg (by rw [hfresh.noSyn]; exact Bool.false_ne_true)] at below
      have := hfresh.nothing
      omega
    · rw [if_pos hstarted.syn] at below
      rcases hstarted.acked with hack | ⟨-, hall, -⟩
      · omega
      · omega

/-- What the stages behind the payload do to an exact receiver: note the FIN, consume it once
everything is written, and end the output with it. -/
theorem finish_exact {r : TCPReceiver} {C : Finset Nat} {i : Nat} {seg : TCPSegment}
    (exact : StreamReassembler.Exact S C r.reassembler) (started : TCPReceiver.Started S isn r)
    (carved : Carved S isn i seg) (short : S.length < 2 ^ 30)
    (early : r.reassembler.output.isEnd = true → r.receivedFin = true ∨ seg.header.fin = true) :
    let out := (r.noteFin seg).consumeFin.endStream
    StreamReassembler.Exact S C out.reassembler ∧ TCPReceiver.Started S isn out ∧
      (out.receivedFin = true → out.reassembler.output.totalBytesWritten = S.length →
        out.ackNo64 = S.length + 2) ∧
      out.receivedFin = (r.receivedFin || seg.header.fin) ∧
      out.reassembler.eofIndex = r.reassembler.eofIndex ∧
      (out.reassembler.output.isEnd = true ↔
        out.reassembler.output.totalBytesWritten = S.length ∧ out.receivedFin = true) ∧
      out.reassembler.output.totalBytesRead = r.reassembler.output.totalBytesRead ∧
      out.capacity = r.capacity ∧ out.reassembler.capacity = r.reassembler.capacity := by
  intro out
  have hnote := TCPReceiver.noteFin_started started carved short
  obtain ⟨hconsume, hsettled⟩ := TCPReceiver.consumeFin_started hnote short
  have hend := TCPReceiver.endStream_isEnd hconsume
  have hfin := TCPReceiver.noteFin_receivedFin r seg
  have hcap := TCPReceiver.noteFin_capacity r seg
  have hstarted : TCPReceiver.Started S isn out := TCPReceiver.endStream_started hconsume
  have hframe : out = { (r.noteFin seg).consumeFin with reassembler := { r.reassembler with
      output := { r.reassembler.output with isEnd := out.reassembler.output.isEnd } } } := by
    have h := TCPReceiver.endStream_frame (r.noteFin seg).consumeFin
    rwa [TCPReceiver.consumeFin_reassembler, TCPReceiver.noteFin_reassembler] at h
  have hfinOut : out.receivedFin = (r.receivedFin || seg.header.fin) := by
    rw [hframe, TCPReceiver.consumeFin_frame]
    exact hfin
  have hack : out.ackNo64 = (r.noteFin seg).consumeFin.ackNo64 := by rw [hframe]
  have hwritten : out.reassembler.output.totalBytesWritten =
      r.reassembler.output.totalBytesWritten := by rw [hframe]
  have hsettled : out.receivedFin = true → r.reassembler.output.totalBytesWritten = S.length →
      out.ackNo64 = S.length + 2 := by
    rw [hack, hfinOut, ← hfin]
    rw [TCPReceiver.noteFin_reassembler] at hsettled
    exact hsettled
  rw [TCPReceiver.consumeFin_reassembler, TCPReceiver.noteFin_reassembler, ← hack] at hend
  have hfinConsume : (r.noteFin seg).consumeFin.receivedFin = out.receivedFin := by rw [hframe]
  rw [hfinConsume] at hend
  have hended : out.reassembler.output.isEnd = true ↔
      r.reassembler.output.totalBytesWritten = S.length ∧ out.receivedFin = true := by
    refine hend.trans ⟨?_, fun ⟨hall, hf⟩ => .inr ⟨hsettled hf hall, hf⟩⟩
    rintro (hold | ⟨hackEnd, hf⟩)
    · refine ⟨exact.expectIdx_eq ▸ exact.ended hold, ?_⟩
      rw [hfinOut, Bool.or_eq_true]
      exact early hold
    · have hwithin := exact.safe.output.within
      rcases hstarted.acked with hone | ⟨-, hall, -⟩
      · omega
      · exact ⟨hwritten ▸ hall, hf⟩
  have hexact : StreamReassembler.Exact S C { r.reassembler with
      output := { r.reassembler.output with isEnd := out.reassembler.output.isEnd } } :=
    exact.setEnd fun he => exact.expectIdx_eq.trans (hended.mp he).1
  refine ⟨?_, hstarted, hwritten ▸ hsettled, hfinOut, by rw [hframe], hwritten ▸ hended,
    by rw [hframe], ?_, by rw [hframe]⟩
  · rw [hframe]
    exact hexact
  · rw [hframe, TCPReceiver.consumeFin_frame]
    exact hcap

theorem Conforms.segment {capacity : Nat} (h : Conforms S isn capacity s) {i : Nat}
    {seg : TCPSegment} (peer : Peer S isn s (.segment i seg)) (below : InWindow s (.segment i seg))
    (fits : EdgeFits s (.segment i seg)) (short : S.length < 2 ^ 30) :
    Conforms S isn capacity (s.step (.segment i seg)) := by
  obtain ⟨carved, first⟩ := peer
  have hphase : TCPReceiver.Fresh S s.receiver ∧ seg.header.syn = true ∨
      TCPReceiver.Started S isn s.receiver :=
    h.phase.imp (fun hf => ⟨hf, first hf.noSyn⟩) (·.1)
  have hsyn := TCPReceiver.acceptSyn_keeps hphase carved
  have hreassembler := TCPReceiver.acceptSyn_reassembler s.receiver seg
  have hexact : StreamReassembler.Exact S s.received (s.receiver.acceptSyn seg).reassembler := by
    rw [hreassembler]
    exact h.exact
  obtain ⟨hexact', hread', hcap', heof', hend', hrcap', hfin'⟩ :=
    acceptPayload_exact hexact hsyn carved short
      (fun hne => (TCPReceiver.acceptSyn_keepsWindow hphase).mpr
        (h.window carved (below hne) (fits hne)).1)
      (fun hne => by
        rw [hreassembler]
        exact (h.window carved (below hne) (fits hne)).2)
  have hstarted := TCPReceiver.acceptPayload_started hsyn carved short
  rw [hreassembler] at hread' hcap' heof' hend'
  rw [TCPReceiver.acceptSyn_receivedFin] at hfin'
  rw [TCPReceiver.acceptSyn_capacity] at hrcap'
  have hle := hexact'.expectIdx_le.1
  -- an output ended by the push met an end index that some FIN segment set
  have early : ((s.receiver.acceptSyn seg).acceptPayload seg).reassembler.output.isEnd = true →
      ((s.receiver.acceptSyn seg).acceptPayload seg).receivedFin = true ∨
        seg.header.fin = true := by
    intro hc
    rw [hfin']
    rcases hend' hc with hold | hmeet
    · exact .inl (h.ended.mp hold).2
    · rcases heof' with hsame | hf
      · rcases h.noted with hunset | hf
        · omega
        · exact .inl hf
      · exact .inr hf
  obtain ⟨hexact5, hstarted5, hsettled5, hfin5, heof5, hended5, hread5, hrcap5, hcap5⟩ :=
    finish_exact hexact' hstarted carved short early
  refine ⟨hexact5, .inr ⟨hstarted5, hsettled5⟩, ?_, ?_, hended5, ⟨hrcap5.trans (hrcap'.trans h.cap.1),
    hcap5.trans (hcap'.trans h.cap.2)⟩, ?_⟩
  · refine hfin5.trans ?_
    rw [hfin', h.fin]
    rfl
  · show (TCPReceiver.endStream _).reassembler.eofIndex = _ ∨ (TCPReceiver.endStream _).receivedFin = _
    rw [heof5, hfin5, hfin', Bool.or_eq_true]
    rcases heof' with hsame | hf
    · rw [hsame]
      exact h.noted.imp_right .inl
    · exact .inr (.inr hf)
  · exact h.log.trans (congrArg S.take (hread5.trans hread').symm)

/-- **The receiver is correct against every conformant peer**, in every run whose payloads arrive
under a 64-bit right edge. -/
theorem reception_exact {capacity : Nat} (short : S.length < 2 ^ 30)
    (run : Runs.Reach step (fun s op => (Peer S isn s op ∧ InWindow s op) ∧ EdgeFits s op)
      (new capacity) s) :
    ∃ n, IsLeast {i | i ∉ s.received} n ∧
      s.receiver.streamOut.bytesWritten = n ∧
      s.readLog ++ s.receiver.streamOut.buf = S.take n ∧
      s.receiver.ackno = (if s.receiver.receivedSyn then
        some (wrap (1 + n + if s.receiver.streamOut.inputEnded then 1 else 0) isn) else none) ∧
      (s.receiver.streamOut.inputEnded = true ↔ n = S.length ∧ s.finSeen = true) ∧
      s.receiver.windowSize = capacity - s.receiver.streamOut.bufferSize := by
  have h : Conforms S isn capacity s := by
    refine run.invariant (Conforms S isn capacity) (conforms_new S isn capacity) ?_
    intro s op ih ⟨⟨peer, below⟩, fits⟩
    cases op with
    | segment i seg => exact ih.segment peer below fits short
    | read len => exact ih.read len
  refine ⟨_, h.exact.least, rfl, ?_, ?_, h.fin ▸ h.ended, ?_⟩
  · rw [h.log]
    exact h.exact.safe.output.take_append
  · unfold TCPReceiver.ackno
    rcases h.phase with hfresh | ⟨hstarted, hsettled⟩
    · rw [hfresh.noSyn]
      rfl
    · rw [if_pos hstarted.syn, if_pos hstarted.syn, hstarted.isn_eq]
      congr 2
      show s.receiver.ackNo64 = 1 + s.receiver.reassembler.output.totalBytesWritten +
        if s.receiver.reassembler.output.isEnd then 1 else 0
      by_cases hend : s.receiver.reassembler.output.isEnd = true
      · obtain ⟨hall, hfin⟩ := h.ended.mp hend
        rw [if_pos hend, hsettled hfin hall]
        omega
      · rw [if_neg hend]
        rcases hstarted.acked with hone | ⟨-, hall, hfin⟩
        · exact hone
        · exact absurd (h.ended.mpr ⟨hall, hfin⟩) hend
  · unfold TCPReceiver.windowSize TCPReceiver.streamOut
    rw [ByteStream.bytesNotRead_eq, h.cap.1]
    rfl

/-- Three bytes, out of order and with an overlap, the first on the SYN and the FIN on the last. -/
theorem reception_exact_three :
    let s := [.segment 0 (synSegment [1]), .segment 2 (dataSegment 2 [3] true), .read 1,
      .segment 0 (dataSegment 0 [1, 2] false)].foldl step (new 3)
    ∃ n, IsLeast {i | i ∉ s.received} n ∧
      s.receiver.streamOut.bytesWritten = n ∧
      s.readLog ++ s.receiver.streamOut.buf = [1, 2, 3].take n ∧
      s.receiver.ackno = (if s.receiver.receivedSyn then
        some (wrap (1 + n + if s.receiver.streamOut.inputEnded then 1 else 0) ⟨7⟩) else none) ∧
      (s.receiver.streamOut.inputEnded = true ↔ n = [1, 2, 3].length ∧ s.finSeen = true) ∧
      s.receiver.windowSize = 3 - s.receiver.streamOut.bufferSize :=
  reception_exact (S := [1, 2, 3]) (by decide) (Runs.reach_foldl .start (by decide))

/-- **A right edge past `2 ^ 64` wraps, and the cut drops payload inside the window.** A SYN with one
byte meets a fresh receiver of capacity `2 ^ 64 - 1`: the byte is received and not written. -/
theorem wrapped_edge_drops_payload :
    let s := [.segment 0 (synSegment [1])].foldl step (new (2 ^ 64 - 1))
    Runs.Reach step (fun s op => Peer [1] ⟨7⟩ s op ∧ InWindow s op) (new (2 ^ 64 - 1)) s ∧
      IsLeast {i | i ∉ s.received} 1 ∧ s.receiver.streamOut.bytesWritten = 0 := by
  intro s
  refine ⟨Runs.reach_foldl .start (by decide), ⟨by decide, fun i hi => ?_⟩, by decide⟩
  by_contra hlt
  refine hi (Finset.mem_union_right _ (Finset.mem_Ico.mpr ⟨Nat.zero_le i, ?_⟩))
  show i < 1
  omega

end Reception

end Sponge
