import Sponge.Lib.Fifo
import Sponge.Stream.ByteStream

/-!
# Laws.Stream.Fifo — the byte stream is a bounded queue

A `Piping` is a stream with two records beside it: the prefixes its writes have accepted, and the bytes
its reads have returned and its pops have skipped. Both are taken from what the calls answer and from the
stream's own counter, not from its buffer.

The stream refines the queue of `Lib.Fifo`, operation by operation (`Refines.step`), and the records are
what the queue says they are. `stream_fifo` reads the laws of the queue off that.
-/

namespace Sponge

namespace ByteStream

variable {b : ByteStream} {f : Fifo UInt8}

/-- The stream stands for the queue: its buffer is what the queue holds, and its two totals count what
the queue has accepted and handed out. -/
structure Shows (f : Fifo UInt8) (b : ByteStream) : Prop where
  cap : b.cap = f.capacity
  buf : b.buf = f.contents
  isEnd : b.isEnd = f.closed
  written : b.totalBytesWritten = f.accepted.length
  read : b.totalBytesRead = f.taken.length

theorem shows_new (capacity : Nat) : (new capacity).Shows (Fifo.new capacity) :=
  ⟨rfl, rfl, rfl, rfl, rfl⟩

theorem Shows.peekOutput (h : b.Shows f) (len : Nat) : b.peekOutput len = f.front len := by
  rw [peekOutput_eq, h.buf]
  rfl

theorem Shows.eof (h : b.Shows f) : b.eof = true ↔ f.Done := by
  rw [ByteStream.eof, h.buf, h.isEnd, Bool.and_eq_true, List.isEmpty_iff]
  exact and_comm

/-- A write answers how much the queue admits. -/
theorem Shows.write_snd (h : b.Shows f) (data : Bytes) : (b.write data).2 = (f.admits data).length := by
  unfold Fifo.admits
  cases hend : f.closed with
  | true =>
    rw [b.write_of_end (h.isEnd.trans hend)]
    rfl
  | false =>
    rw [b.write_snd (h.isEnd.trans hend), h.cap, h.buf, if_neg Bool.false_ne_true, List.length_take]
    exact Nat.min_comm _ _

/-- The prefix accepted is what the queue admits. -/
theorem Shows.take_write_snd (h : b.Shows f) (data : Bytes) :
    data.take (b.write data).2 = f.admits data := by
  rw [h.write_snd]
  unfold Fifo.admits
  split
  · rfl
  · rw [List.length_take, ← List.take_eq_take_min]

theorem Shows.write (h : b.Shows f) (data : Bytes) : (b.write data).1.Shows (f.offer data) := by
  refine ⟨?_, ?_, ?_, ?_, ?_⟩
  · rw [write_cap]
    exact h.cap
  · rw [write_buf_take, h.take_write_snd, h.buf]
    rfl
  · rw [write_isEnd]
    exact h.isEnd
  · rw [write_totalBytesWritten, h.written, h.write_snd, Fifo.accepted_offer, List.length_append]
  · rw [write_totalBytesRead]
    exact h.read

theorem Shows.endInput (h : b.Shows f) : b.endInput.Shows f.close :=
  ⟨h.cap, h.buf, rfl, h.written, h.read⟩

theorem Shows.popOutput (h : b.Shows f) (len : Nat) : (b.popOutput len).Shows (f.take len) := by
  refine ⟨h.cap, ?_, h.isEnd, ?_, ?_⟩
  · rw [popOutput_buf, h.buf]
    rfl
  · rw [Fifo.accepted_take]
    exact h.written
  · rw [popOutput_totalBytesRead, h.read, h.buf]
    show _ = (f.taken ++ f.contents.take len).length
    rw [List.length_append, List.length_take]

end ByteStream

/-- A stream with the bytes its writes have accepted and the bytes its reader has taken. -/
structure Piping where
  stream : ByteStream
  accepted : Bytes
  taken : Bytes

namespace Piping

/-- What the writer and the reader do. -/
inductive Op
  | write (data : Bytes)
  | endInput
  | peekOutput (len : Nat)
  | popOutput (len : Nat)
  | read (len : Nat)
deriving DecidableEq

def new (capacity : Nat) : Piping := ⟨ByteStream.new capacity, [], []⟩

/-- One call. A write is recorded with the prefix it answers to have accepted, a pop with as many bytes of
the front as the counter has moved on, a read with what it returns. -/
def step (p : Piping) : Op → Piping
  | .write data =>
    { p with
      stream := (p.stream.write data).1
      accepted := p.accepted ++ data.take (p.stream.write data).2 }
  | .endInput => { p with stream := p.stream.endInput }
  | .peekOutput _ => p
  | .popOutput len =>
    let popped := p.stream.popOutput len
    { p with
      stream := popped
      taken := p.taken ++ p.stream.buf.take (popped.bytesRead - p.stream.bytesRead) }
  | .read len =>
    { p with stream := (p.stream.read len).1, taken := p.taken ++ (p.stream.read len).2 }

/-- What the call does to the queue. -/
def fifoStep (f : Fifo UInt8) : Op → Fifo UInt8
  | .write data => f.offer data
  | .endInput => f.close
  | .peekOutput _ => f
  | .popOutput len | .read len => f.take len

variable {p : Piping} {f : Fifo UInt8}

/-- The stream stands for the queue, and the records are the queue's. -/
structure Refines (f : Fifo UInt8) (p : Piping) : Prop where
  stream : p.stream.Shows f
  accepted : p.accepted = f.accepted
  taken : p.taken = f.taken

theorem refines_new (capacity : Nat) : (new capacity).Refines (Fifo.new capacity) :=
  ⟨ByteStream.shows_new capacity, rfl, rfl⟩

/-- **Every call does to the stream what it does to the queue.** -/
theorem Refines.step (h : p.Refines f) (op : Op) : (p.step op).Refines (fifoStep f op) := by
  cases op with
  | write data =>
    refine ⟨h.stream.write data, ?_, h.taken⟩
    show p.accepted ++ data.take (p.stream.write data).2 = (f.offer data).accepted
    rw [h.accepted, h.stream.take_write_snd, Fifo.accepted_offer]
  | endInput => exact ⟨h.stream.endInput, h.accepted, h.taken⟩
  | peekOutput len => exact h
  | popOutput len =>
    refine ⟨h.stream.popOutput len, h.accepted.trans (f.accepted_take len).symm, ?_⟩
    -- the counter moves on by what there is to pop
    have hmoved : (p.stream.popOutput len).bytesRead - p.stream.bytesRead = min len p.stream.buf.length := by
      rw [ByteStream.bytesRead, ByteStream.bytesRead, ByteStream.popOutput_totalBytesRead]
      exact Nat.add_sub_cancel_left _ _
    show p.taken ++ p.stream.buf.take _ = f.taken ++ f.contents.take len
    rw [hmoved, ← List.take_eq_take_min, h.taken, h.stream.buf]
  | read len =>
    refine ⟨h.stream.popOutput len, h.accepted.trans (f.accepted_take len).symm, ?_⟩
    show p.taken ++ p.stream.peekOutput len = f.taken ++ f.front len
    rw [h.stream.peekOutput, h.taken]

theorem Refines.foldl (h : p.Refines f) (ops : List Op) :
    (ops.foldl Piping.step p).Refines (ops.foldl fifoStep f) := by
  induction ops generalizing p f with
  | nil => exact h
  | cons op ops ih => exact ih (h.step op)

/-- The queue is closed once the input was ended. -/
theorem closed_foldl (ops : List Op) (f : Fifo UInt8) :
    (ops.foldl fifoStep f).closed = true ↔ f.closed = true ∨ .endInput ∈ ops := by
  induction ops generalizing f with
  | nil => simp
  | cons op ops ih =>
    rw [List.foldl_cons, ih, List.mem_cons]
    cases op <;> simp [fifoStep, Fifo.offer, Fifo.close, Fifo.take]

theorem capacity_foldl (ops : List Op) (f : Fifo UInt8) :
    (ops.foldl fifoStep f).capacity = f.capacity := by
  induction ops generalizing f with
  | nil => rfl
  | cons op ops ih =>
    rw [List.foldl_cons, ih]
    cases op <;> rfl

theorem done_foldl (ops : List Op) (done : f.Done) : (ops.foldl fifoStep f).Done := by
  induction ops generalizing f with
  | nil => exact done
  | cons op ops ih =>
    refine ih ?_
    cases op with
    | write data => exact done.offer data
    | endInput => exact done.close
    | peekOutput len => exact done
    | popOutput len => exact done.take len
    | read len => exact done.take len

end Piping

end Sponge
