import Sponge.Laws.Tcp.Linger
import Sponge.Laws.Tcp.Reception
import Sponge.Laws.Tcp.State

/-!
# Laws.Tcp.Duplex — two connections as a pair of pipes

A `Duplex` is two connections over a network that may lose, repeat and reorder segments, with what each
owner wrote and read kept beside them. Nothing is assumed of the owners: they connect, write, close, read
and tick as they like, and either end may be reset.

What one owner reads is always a prefix of what the other wrote and got accepted
(`reads_written`). When the end of the stream is honest as well is the subject of `Laws.Tcp.Eof`.
-/

namespace Sponge

namespace TCPConnection

/-- The bytes an operation hands to the reader of the inbound stream. -/
def yields (c : TCPConnection) : Op → Bytes
  | .read len => c.inboundStream.peekOutput len
  | _ => []

variable {c : TCPConnection} {r : TCPReceiver}

/-- What an operation yields continues the log of everything read. -/
theorem read_log_receives {S readLog : Bytes} (flagged : c.receiver.Flagged r)
    (carries : c.receiver.streamOut.Carries S)
    (log : readLog = S.take c.receiver.streamOut.totalBytesRead) (op : Op) :
    readLog ++ c.yields op = S.take (receives r op).streamOut.totalBytesRead := by
  obtain ⟨isEnd, error, rfl⟩ := flagged
  cases op with
  | read len => exact carries.read_log log len
  | segmentReceived seg =>
    unfold receives yields
    dsimp only
    rw [List.append_nil]
    split
    · exact log
    · rw [TCPReceiver.streamOut, TCPReceiver.segmentReceived_totalBytesRead]
      exact log
  | _ => exact (List.append_nil _).trans log

end TCPConnection

/-- A connection, what its owner wrote and got accepted, and what its owner read. -/
structure Endpoint where
  conn : TCPConnection
  written : Bytes
  read : Bytes

namespace Endpoint

open TCPConnection (Op)

def new (cfg : TCPConfig) : Endpoint := ⟨TCPConnection.new cfg, [], []⟩

def step (p : Endpoint) (op : Op) : Endpoint where
  conn := p.conn.step op
  written := p.written ++ p.conn.accepts op
  read := p.read ++ p.conn.yields op

/-- One direction: what `x` sends and what `y` makes of it. -/
structure Way (isn : WrappingInt32) (log hist : List TCPSegment) (x y : Endpoint) : Prop where
  ready : x.conn.Ready
  few : x.conn.sender.nextSeqno < 2 ^ 31
  lane : TCPConnection.Lane x.written isn log hist x.conn y.conn
  taken : y.read = (sentBytes log).take y.conn.receiver.streamOut.totalBytesRead

variable {x y : Endpoint} {isn isn₂ : WrappingInt32} {log hist log₂ hist₂ : List TCPSegment} {op : Op}

theorem way_new (cfg cfg' : TCPConfig) : Way cfg.isn [] [] (new cfg) (new cfg') where
  ready := TCPConnection.ready_new cfg
  few := by show 0 < 2 ^ 31; omega
  lane := TCPConnection.lane_new cfg cfg'
  taken := rfl

/-- The receiving end's stream carries what was sent. -/
theorem Way.carries (h : Way isn log hist x y) :
    y.conn.receiver.streamOut.Carries (sentBytes log) := by
  rcases h.lane.phase with waiting | ⟨hstarted, -⟩
  · exact waiting.fresh.safe.output
  · exact hstarted.safe.output

/-- What was sent is a front of what was written. -/
theorem Way.sentBytes_eq (h : Way isn log hist x y) :
    sentBytes log = x.written.take (sentBytes log).length := by
  rw [h.lane.accounts.length_sentBytes]
  exact h.lane.accounts.payloads

/-- **A step of one end keeps both directions**, if it is handed only what the other end sent. -/
theorem Way.move (h : Way isn log hist x y) (back : Way isn₂ log₂ hist₂ y x)
    (delivers : ∀ seg, op = .segmentReceived seg → seg ∈ y.conn.segmentsOut)
    (few : x.conn.sender.nextSeqno < 2 ^ 30) (few₂ : y.conn.sender.nextSeqno < 2 ^ 30) :
    ∃ new queue, Way isn (log ++ new) (hist ++ queue) (x.step op) y ∧
      Way isn₂ log₂ hist₂ y (x.step op) := by
  have hcall := x.conn.call_step op
  obtain ⟨new, queue, hledger, hnext, hwired⟩ := h.lane.ledger.call_accepts h.ready (by omega) hcall
  refine ⟨new, queue, ⟨h.ready.step op, Nat.lt_of_le_of_lt hnext (by omega), ?_, ?_⟩,
    ⟨back.ready, back.few, ?_, ?_⟩⟩
  · exact h.lane.send hledger hwired fun waiting =>
      h.ready.reaches waiting.small hcall fun seg hop => waiting.silent seg (delivers seg hop)
  · -- what is read already does not change with what is sent now
    have hwithin := h.carries.within
    have hwritten := h.carries.written
    rw [sentBytes_append, List.take_append_of_le_length (by omega)]
    exact h.taken
  · obtain ⟨r, hflagged, -, hafter⟩ := h.ready.receiver hcall
    refine back.lane.receive ((back.lane.receives few₂ hflagged delivers).flagged hafter) hwired ?_
    exact fun seg hseg => hledger.books.plain seg
      (.inr (List.mem_append_left _ (List.mem_append_right _ hseg)))
  · obtain ⟨r, hflagged, -, isEnd, error, hafter⟩ := h.ready.receiver hcall
    have hlog := TCPConnection.read_log_receives hflagged back.carries back.taken op
    rw [show (x.step op).conn = x.conn.step op from rfl, hafter]
    exact hlog

/-- What one end has read is a front of what the other has written. -/
theorem Way.reads (h : Way isn log hist x y) : y.read <+: x.written := by
  rw [h.taken, h.sentBytes_eq]
  exact (List.take_prefix _ _).trans (List.take_prefix _ _)

end Endpoint

/-- Two ends that exchange segments. The network holds everything either of them ever sent. -/
structure Duplex where
  left : Endpoint
  right : Endpoint

namespace Duplex

open TCPConnection (Lane)

def new (cfg cfg' : TCPConfig) : Duplex := ⟨Endpoint.new cfg, Endpoint.new cfg'⟩

def on (s : Duplex) : Side → Endpoint
  | .left => s.left
  | .right => s.right

def step (s : Duplex) : Side × TCPConnection.Op → Duplex
  | (.left, op) => { s with left := s.left.step op }
  | (.right, op) => { s with right := s.right.step op }

/-- An end is handed only what the other one has sent: again or never, in any order. -/
def Delivers (s : Duplex) : Side × TCPConnection.Op → Prop
  | (side, .segmentReceived seg) => seg ∈ (s.on side.other).conn.segmentsOut
  | _ => True

instance (s : Duplex) : ∀ op, Decidable (Delivers s op)
  | (_, .segmentReceived _) => inferInstanceAs (Decidable (_ ∈ _))
  | (_, .connect) | (_, .write _) | (_, .endInputStream) | (_, .tick _) | (_, .read _) =>
    inferInstanceAs (Decidable True)

/-- Either end has used fewer than `2 ^ 30` sequence numbers. -/
def Few (s : Duplex) : Prop :=
  s.left.conn.sender.nextSeqno < 2 ^ 30 ∧ s.right.conn.sender.nextSeqno < 2 ^ 30

/-- The network delivers what was sent. -/
def Allowed (s : Duplex) (op : Side × TCPConnection.Op) : Prop := s.Delivers op ∧ s.Few

instance (s : Duplex) (op : Side × TCPConnection.Op) : Decidable (s.Allowed op) :=
  inferInstanceAs (Decidable (_ ∧ _ ∧ _))

variable {s : Duplex} {cfg cfg' : TCPConfig}

theorem Delivers.sent {side : Side} {op : TCPConnection.Op} (h : s.Delivers (side, op)) :
    ∀ seg, op = .segmentReceived seg → seg ∈ (s.on side.other).conn.segmentsOut := by
  rintro seg rfl
  exact h

/-- What holds in both directions. -/
def Joint (isn isn' : WrappingInt32) (s : Duplex) : Prop :=
  (∃ log hist, Endpoint.Way isn log hist s.left s.right) ∧
    ∃ log hist, Endpoint.Way isn' log hist s.right s.left

theorem joint_new (cfg cfg' : TCPConfig) : Joint cfg.isn cfg'.isn (new cfg cfg') :=
  ⟨⟨_, _, Endpoint.way_new cfg cfg'⟩, _, _, Endpoint.way_new cfg' cfg⟩

theorem Joint.step {isn isn' : WrappingInt32} (h : Joint isn isn' s) {op : Side × TCPConnection.Op}
    (allowed : s.Allowed op) : Joint isn isn' (s.step op) := by
  obtain ⟨⟨log, hist, hleft⟩, log', hist', hright⟩ := h
  obtain ⟨side, op⟩ := op
  obtain ⟨hdelivers, hfew⟩ := allowed
  have hsent := hdelivers.sent
  cases side with
  | left =>
    obtain ⟨new, queue, hmoved, hback⟩ := hleft.move hright hsent hfew.1 hfew.2
    exact ⟨⟨_, _, hmoved⟩, log', hist', hback⟩
  | right =>
    obtain ⟨new, queue, hmoved, hback⟩ := hright.move hleft hsent hfew.2 hfew.1
    exact ⟨⟨log, hist, hback⟩, _, _, hmoved⟩

theorem joint_of_run (run : Runs.Reach step Allowed (new cfg cfg') s) : Joint cfg.isn cfg'.isn s :=
  run.invariant (Joint cfg.isn cfg'.isn) (joint_new cfg cfg') fun _ _ h allowed => h.step allowed

/-- **What an owner reads is a prefix of what the other owner wrote**, in every run of two connections over
a network that loses, repeats and reorders, as long as each uses fewer than `2 ^ 30` sequence numbers. -/
theorem reads_written (run : Runs.Reach step Allowed (new cfg cfg') s) (side : Side) :
    (s.on side).read <+: (s.on side.other).written := by
  obtain ⟨⟨_, _, hleft⟩, _, _, hright⟩ := joint_of_run run
  cases side with
  | left => exact hright.reads
  | right => exact hleft.reads

/-- Three bytes are written, the first two arrive, and one of them is read. -/
theorem reads_written_one :
    let cfg : TCPConfig := { recvCapacity := 8, sendCapacity := 8 }
    let syn : TCPSegment :=
      { header := { seqno := ⟨0⟩, syn := true, win := 8 }, payload := Buffer.ofString [] }
    let synAck : TCPSegment :=
      { header := { seqno := ⟨0⟩, syn := true, ack := true, ackno := ⟨1⟩, win := 8 },
        payload := Buffer.ofString [] }
    let ack : TCPSegment := { header := { seqno := ⟨1⟩, ack := true, ackno := ⟨1⟩, win := 8 } }
    let data : TCPSegment :=
      { header := { seqno := ⟨1⟩, ack := true, ackno := ⟨1⟩, win := 8 },
        payload := Buffer.ofString [1, 2] }
    let s := [(.left, .connect), (.right, .segmentReceived syn), (.left, .segmentReceived synAck),
      (.right, .segmentReceived ack), (.right, .write [1, 2]), (.right, .write [3]),
      (.left, .segmentReceived data), (.left, .read 1)].foldl step (new cfg cfg)
    s.left.read = [1] ∧ s.left.read <+: s.right.written := by
  intro cfg syn synAck ack data s
  have run : Runs.Reach step Allowed (new cfg cfg) s := Runs.reach_foldl .start (by decide +kernel)
  exact ⟨by decide +kernel, reads_written run .left⟩

end Duplex

end Sponge
