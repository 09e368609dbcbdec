import Sponge.Lib.Excerpt

/-!
# The byte stream

`libsponge/byte_stream.cc`: a bounded first-in first-out queue of bytes with an end marker. A writer
appends bytes while there is room and may end the input; a reader peeks at and pops the front.

The buffer never holds more than the capacity, and the structure carries that (`fits`), so the two
unsigned differences `remaining_capacity` and `bytes_not_read` are plain differences of naturals.
The two totals count bytes that were really moved; they are naturals and do not wrap.
`end_input` and `set_error` only set a flag.

Each loop of the source is kept as a recursion over the bytes it walks, with one equation that says
what it computes (`writeLoop_eq`, `popLoop_eq`, `peekOutput_eq`); the rest of the development uses
the equations.
-/

namespace Sponge

/-- A `std::string`: the bytes it holds. -/
abbrev Bytes := List UInt8

/-- The filler of a freshly made `string(n, '-')`. -/
def filler : UInt8 := 45

/-- The stream's state, with the bound its writer keeps. -/
structure ByteStream where
  cap : Nat
  isEnd : Bool
  totalBytesWritten : Nat
  totalBytesRead : Nat
  buf : Bytes
  error : Bool
  fits : buf.length ≤ cap
deriving DecidableEq

namespace ByteStream

variable (b : ByteStream)

/-- A stream with room for `capacity` bytes. -/
def new (capacity : Nat) : ByteStream where
  cap := capacity
  isEnd := false
  totalBytesWritten := 0
  totalBytesRead := 0
  buf := []
  error := false
  fits := Nat.zero_le _

/-- The loop of `write`: push bytes while the buffer is below its capacity. Answers the buffer and
the number of bytes pushed. -/
def writeLoop (cap : Nat) (buf : Bytes) : Bytes → Bytes × Nat
  | [] => (buf, 0)
  | c :: data =>
    if buf.length < cap then
      let rest := writeLoop cap (buf ++ [c]) data
      (rest.1, rest.2 + 1)
    else (buf, 0)

/-- The loop appends what fits and counts it. -/
theorem writeLoop_eq (cap : Nat) (buf data : Bytes) :
    writeLoop cap buf data =
      (buf ++ data.take (cap - buf.length), min data.length (cap - buf.length)) := by
  induction data generalizing buf with
  | nil => simp only [writeLoop, List.take_nil, List.append_nil, List.length_nil, Nat.zero_min]
  | cons c data ih =>
    rw [writeLoop]
    by_cases room : buf.length < cap
    · rw [if_pos room, ih, List.length_append, List.length_singleton, List.length_cons]
      obtain ⟨k, hk⟩ : ∃ k, cap - buf.length = k + 1 := ⟨cap - buf.length - 1, by omega⟩
      rw [hk, List.take_succ_cons, show cap - (buf.length + 1) = k by omega, List.append_assoc]
      simp only [List.singleton_append, Prod.mk.injEq, true_and]
      omega
    · rw [if_neg room, show cap - buf.length = 0 by omega, List.take_zero, List.append_nil,
        Nat.min_zero]

/-- `write`: accept what fits, unless the input has ended; answer the number of bytes accepted. -/
def write (data : Bytes) : ByteStream × Nat :=
  if b.isEnd then (b, 0)
  else
    ({ b with
        buf := (writeLoop b.cap b.buf data).1
        totalBytesWritten := b.totalBytesWritten + (writeLoop b.cap b.buf data).2
        fits := by
          have := b.fits
          rw [writeLoop_eq, List.length_append, List.length_take]
          omega },
      (writeLoop b.cap b.buf data).2)

/-- `peek_output`: a filler string of the length asked for, overwritten with the front of the
buffer, then cut to the bytes there are. -/
def peekOutput (len : Nat) : Bytes :=
  let realLen := if b.buf.length < len then b.buf.length else len
  (List.writeAt (List.replicate len filler) 0 (b.buf.take realLen)).take realLen

/-- The loop of `pop_output`: drop bytes until `len` are gone or the buffer is empty. Answers the
buffer and the number of bytes dropped. -/
def popLoop : Nat → Bytes → Bytes × Nat
  | 0, buf => (buf, 0)
  | _ + 1, [] => ([], 0)
  | len + 1, _ :: buf =>
    let rest := popLoop len buf
    (rest.1, rest.2 + 1)

theorem popLoop_eq (len : Nat) (buf : Bytes) :
    popLoop len buf = (buf.drop len, min len buf.length) := by
  induction len generalizing buf with
  | zero => simp only [popLoop, List.drop_zero, Nat.zero_min]
  | succ len ih =>
    cases buf with
    | nil => rfl
    | cons c buf =>
      simp only [popLoop, ih, List.drop_succ_cons, List.length_cons, Prod.mk.injEq, true_and]
      omega

/-- `pop_output`: remove bytes from the front. -/
def popOutput (len : Nat) : ByteStream :=
  { b with
    buf := (popLoop len b.buf).1
    totalBytesRead := b.totalBytesRead + (popLoop len b.buf).2
    fits := by
      have := b.fits
      rw [popLoop_eq, List.length_drop]
      omega }

/-- `read`: peek, then pop. -/
def read (len : Nat) : ByteStream × Bytes := (b.popOutput len, b.peekOutput len)

def endInput : ByteStream := { b with isEnd := true }

def setError : ByteStream := { b with error := true }

def inputEnded : Bool := b.isEnd

def bufferSize : Nat := b.buf.length

def bufferEmpty : Bool := b.buf.isEmpty

/-- The reader is at the end: nothing buffered, and no more input to come. -/
def eof : Bool := b.buf.isEmpty && b.isEnd

def bytesWritten : Nat := b.totalBytesWritten

def bytesRead : Nat := b.totalBytesRead

def remainingCapacity : Nat := b.cap - b.buf.length

def bytesNotRead : Nat := b.cap - b.remainingCapacity

/-! ## What the operations compute -/

/-- The filler never shows: a peek is the front of the buffer. -/
theorem peekOutput_eq (len : Nat) : b.peekOutput len = b.buf.take len := by
  have hreal : (if b.buf.length < len then b.buf.length else len) = min len b.buf.length := by
    split <;> omega
  simp only [peekOutput, hreal]
  have cut : b.buf.take (min len b.buf.length) = b.buf.take len := by
    rcases Nat.le_total len b.buf.length with h | h
    · rw [Nat.min_eq_left h]
    · rw [Nat.min_eq_right h, List.take_length, List.take_of_length_le h]
  refine List.ext_getElem? fun j => ?_
  by_cases hj : j < min len b.buf.length
  · rw [List.getElem?_take_of_lt hj, List.getElem?_writeAt _ _ _ (by rw [List.length_replicate]; omega),
      if_pos (by rw [List.length_take]; omega), cut, Nat.sub_zero]
  · rw [List.getElem?_take_eq_none (by omega), List.getElem?_eq_none (by rw [List.length_take]; omega)]

@[simp] theorem bytesNotRead_eq : b.bytesNotRead = b.buf.length := by
  have := b.fits
  unfold bytesNotRead remainingCapacity
  omega

/-- A write to a stream whose input has ended does nothing. -/
theorem write_of_end (h : b.isEnd = true) (data : Bytes) : b.write data = (b, 0) :=
  if_pos h

/-- Neither does a write of nothing, or to a full stream. -/
theorem write_of_full {data : Bytes} (h : data = [] ∨ b.buf.length = b.cap) : b.write data = (b, 0) := by
  have hloop : writeLoop b.cap b.buf data = (b.buf, 0) := by
    rw [writeLoop_eq]
    rcases h with rfl | hfull
    · rw [List.take_nil, List.append_nil, List.length_nil, Nat.zero_min]
    · rw [hfull, Nat.sub_self, List.take_zero, List.append_nil, Nat.min_zero]
  unfold write
  split
  · rfl
  · simp only [hloop, Nat.add_zero]

theorem write_buf (h : b.isEnd = false) (data : Bytes) :
    (b.write data).1.buf = b.buf ++ data.take (b.cap - b.buf.length) := by
  simp only [write, h, Bool.false_eq_true, if_false, writeLoop_eq]

theorem write_snd (h : b.isEnd = false) (data : Bytes) :
    (b.write data).2 = min data.length (b.cap - b.buf.length) := by
  simp only [write, h, Bool.false_eq_true, if_false, writeLoop_eq]

@[simp] theorem write_cap (data : Bytes) : (b.write data).1.cap = b.cap := by
  unfold write
  split <;> rfl

@[simp] theorem write_isEnd (data : Bytes) : (b.write data).1.isEnd = b.isEnd := by
  unfold write
  split <;> rfl

@[simp] theorem write_error (data : Bytes) : (b.write data).1.error = b.error := by
  unfold write
  split <;> rfl

@[simp] theorem write_totalBytesRead (data : Bytes) :
    (b.write data).1.totalBytesRead = b.totalBytesRead := by
  unfold write
  split <;> rfl

/-- The total grows by what the write answers. -/
theorem write_totalBytesWritten (data : Bytes) :
    (b.write data).1.totalBytesWritten = b.totalBytesWritten + (b.write data).2 := by
  unfold write
  split <;> rfl

@[simp] theorem popOutput_buf (len : Nat) : (b.popOutput len).buf = b.buf.drop len := by
  simp only [popOutput, popLoop_eq]

@[simp] theorem popOutput_totalBytesRead (len : Nat) :
    (b.popOutput len).totalBytesRead = b.totalBytesRead + min len b.buf.length := by
  simp only [popOutput, popLoop_eq]

@[simp] theorem popOutput_cap (len : Nat) : (b.popOutput len).cap = b.cap := rfl

@[simp] theorem popOutput_isEnd (len : Nat) : (b.popOutput len).isEnd = b.isEnd := rfl

@[simp] theorem popOutput_totalBytesWritten (len : Nat) :
    (b.popOutput len).totalBytesWritten = b.totalBytesWritten := rfl

@[simp] theorem popOutput_zero : b.popOutput 0 = b := rfl

/-- A write that answers `n` appended the first `n` bytes. -/
theorem write_buf_take (data : Bytes) :
    (b.write data).1.buf = b.buf ++ data.take (b.write data).2 := by
  cases h : b.isEnd with
  | true => rw [write_of_end b h, List.take_zero, List.append_nil]
  | false =>
    rw [write_buf b h, write_snd b h]
    congr 1
    rcases Nat.le_total data.length (b.cap - b.buf.length) with hle | hle
    · rw [Nat.min_eq_left hle, List.take_length, List.take_of_length_le hle]
    · rw [Nat.min_eq_right hle]

theorem write_snd_le (data : Bytes) : (b.write data).2 ≤ data.length := by
  cases h : b.isEnd with
  | true => rw [write_of_end b h]; exact Nat.zero_le _
  | false => rw [write_snd b h]; exact Nat.min_le_left _ _

end ByteStream

end Sponge
