import Mathlib.Algebra.GroupWithZero.Nat
import Sponge.Stream.ByteStream

/-!
# Buffers

`libsponge/util/buffer.cc`: a `Buffer` is a shared string with an offset that only moves forward,
and a `BufferList` is a queue of buffers. The storage is read only, so sharing it is copying it; what
a buffer shows is `str`, the storage from the offset on.

The offset never passes the end of the storage, and the structure carries that (`inside`), so the
length of `str` is a plain difference. A buffer that was consumed to its end drops its storage and
keeps its offset; `str_advance` says that this cannot be seen.
-/

namespace Sponge

/-- What a C++ call may throw, with its text. -/
inductive Exn
  | outOfRange (what : String)
  | runtimeError (what : String)
deriving DecidableEq, Repr

/-- A read-only string that can discard bytes from its front. -/
structure Buffer where
  storage : Option Bytes
  startingOffset : Nat
  inside : ∀ s ∈ storage, startingOffset ≤ s.length
deriving DecidableEq

namespace Buffer

/-- The buffer with no storage. -/
def empty : Buffer := ⟨none, 0, nofun⟩

instance : Inhabited Buffer := ⟨empty⟩

/-- Take ownership of a string. -/
def ofString (s : Bytes) : Buffer := ⟨some s, 0, fun _ _ => Nat.zero_le _⟩

variable (b : Buffer)

/-- `str`: the bytes the buffer shows. -/
def str : Bytes :=
  match b.storage with
  | none => []
  | some s => s.drop b.startingOffset

def size : Nat := b.str.length

/-- `copy`: the bytes, as a string of their own. -/
def copy : Bytes := b.str

/-- The body of `remove_prefix` behind its range check. -/
def advance (n : Nat) (enough : n ≤ b.size) : Buffer :=
  match h : b.storage with
  | none => ⟨none, b.startingOffset + n, nofun⟩
  | some s =>
    if b.startingOffset + n = s.length then ⟨none, b.startingOffset + n, nofun⟩
    else ⟨some s, b.startingOffset + n, by
      intro s' hs'
      cases hs'
      have inside := b.inside s h
      simp only [size, str, h, List.length_drop] at enough
      omega⟩

/-- `remove_prefix`: discard the first `n` bytes, or throw when there are fewer. -/
def removePrefix (n : Nat) : Except Exn Buffer :=
  if h : n ≤ b.size then .ok (b.advance n h)
  else .error (.outOfRange "Buffer::remove_prefix")

@[simp] theorem str_ofString (s : Bytes) : (ofString s).str = s := List.drop_zero

@[simp] theorem copy_eq : b.copy = b.str := rfl

/-- Discarding a front shows the rest. -/
@[simp] theorem str_advance (n : Nat) (enough : n ≤ b.size) :
    (b.advance n enough).str = b.str.drop n := by
  unfold advance
  split
  next h => simp only [str, h, List.drop_nil]
  next s h =>
    split
    next hend => simp only [str, h, List.drop_drop, hend, List.drop_length]
    next => simp only [str, h, List.drop_drop]

theorem startingOffset_advance (n : Nat) (enough : n ≤ b.size) :
    (b.advance n enough).startingOffset = b.startingOffset + n := by
  unfold advance
  split
  · rfl
  · split <;> rfl

/-- The storage is dropped at its end, and kept before. -/
theorem storage_advance (n : Nat) (enough : n ≤ b.size) :
    (b.advance n enough).storage =
      if b.storage.map List.length = some (b.startingOffset + n) then none else b.storage := by
  unfold advance
  split
  next h => simp [h]
  next s h =>
    by_cases hend : b.startingOffset + n = s.length
    · simp [h, hend]
    · simp [h, hend, Ne.symm hend]

end Buffer

/-- The loop of `remove_prefix`, which lists of buffers and lists of views have alike: pop the pieces that
are not longer than what is left to discard, and cut the one behind them. When the pieces run out it
throws, and has popped them all. -/
def removePieces {α : Type} (size : α → Nat) (cut : (piece : α) → (n : Nat) → n < size piece → α)
    (what : String) : List α → Nat → List α × Except Exn Unit
  | pieces, 0 => (pieces, .ok ())
  | [], _ + 1 => ([], .error (.outOfRange what))
  | piece :: rest, n + 1 =>
    if h : n + 1 < size piece then (cut piece (n + 1) h :: rest, .ok ())
    else removePieces size cut what rest (n + 1 - size piece)

/-- A discontiguous string: a queue of buffers. -/
structure BufferList where
  buffers : List Buffer
deriving DecidableEq

namespace BufferList

def empty : BufferList := ⟨[]⟩

/-- The list of one buffer. -/
def ofBuffer (b : Buffer) : BufferList := ⟨[b]⟩

/-- Take ownership of a string. -/
def ofString (s : Bytes) : BufferList := ofBuffer (Buffer.ofString s)

variable (l : BufferList)

/-- `append`: the buffers of another list follow. -/
def append (other : BufferList) : BufferList := ⟨l.buffers ++ other.buffers⟩

/-- The conversion to a `Buffer`: a list of at most one buffer is contiguous. -/
def toBuffer : Except Exn Buffer :=
  match l.buffers with
  | [] => .ok Buffer.empty
  | [b] => .ok b
  | _ => .error (.runtimeError
      "BufferList: please use concatenate() to combine a multi-Buffer BufferList into one Buffer")

def concatenate : Bytes := l.buffers.flatMap Buffer.str

def size : Nat := (l.buffers.map Buffer.size).sum

/-- `remove_prefix`: discard the first `n` bytes, or throw when there are fewer. -/
def removePrefix (n : Nat) : BufferList × Except Exn Unit :=
  let pieces := removePieces Buffer.size (fun b n h => b.advance n (Nat.le_of_lt h))
    "BufferList::remove_prefix" l.buffers n
  (⟨pieces.1⟩, pieces.2)

@[simp] theorem size_ofBuffer (b : Buffer) : (ofBuffer b).size = b.str.length := Nat.add_zero _

theorem concatenate_ofBuffer (b : Buffer) : (ofBuffer b).concatenate = b.str := by
  simp [concatenate, ofBuffer]

theorem length_concatenate : l.concatenate.length = l.size := by
  simp only [concatenate, size, List.length_flatMap]
  rfl

end BufferList

end Sponge
