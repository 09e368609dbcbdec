import Sponge.Lib.Shared
import Sponge.Util.Buffer

/-!
# The storage below buffers

`libsponge/util/buffer.hh` as it lies in memory. `Sponge.Util.Buffer` takes a buffer for the string it
points at and its offset, which forgets that copies of a buffer point at one string. Here the strings are
in a `Heap` that counts its owners, as `std::shared_ptr` does, and a buffer is a `Handle`: a pointer,
which may be null, and the offset. Copying a buffer adds an owner, popping or destroying one takes an
owner away, and so does `remove_prefix` when it comes to the end of the string.

A `BufferViewList` owns nothing: its views are pieces of strings that are stored as long as somebody else
owns them.

A `World` is the heap with the variables of a program. An operation on a variable that is not there, or is
of another kind, is no C++ program and does nothing. An operation with no defined outcome has none: the
world behind it is `none`. The only one is a list with buffers appended to itself.
-/

namespace Sponge

/-- The strings in memory, with their owners counted. -/
abbrev Heap := Shared Bytes

/-- A `Buffer` in memory: the pointer to its string, and the offset. -/
structure Handle where
  storage : Option Nat
  startingOffset : Nat
deriving DecidableEq

namespace Handle

variable (heap : Heap) (b : Handle)

/-- `str`: the bytes the buffer shows. -/
def str : Bytes :=
  match b.storage.bind heap.value with
  | none => []
  | some s => s.drop b.startingOffset

def size : Nat := (b.str heap).length

/-- Copying the buffer adds an owner to its string. -/
def copied : Heap :=
  match b.storage with
  | none => heap
  | some a => heap.retain a

/-- Destroying the buffer takes an owner from its string. -/
def destroyed : Heap :=
  match b.storage with
  | none => heap
  | some a => heap.release a

/-- `remove_prefix`: discard the first `n` bytes, or throw when there are fewer. At the end of the string
the pointer is reset, and the offset stays. -/
def removePrefix (n : Nat) : (Heap × Handle) × Except Exn Unit :=
  if b.size heap < n then ((heap, b), .error (.outOfRange "Buffer::remove_prefix"))
  else
    let offset := b.startingOffset + n
    if (b.storage.bind heap.value).map List.length = some offset then
      ((b.destroyed heap, ⟨none, offset⟩), .ok ())
    else ((heap, ⟨b.storage, offset⟩), .ok ())

end Handle

/-- The queue of a `BufferList` in memory. -/
abbrev Handles := List Handle

namespace Handles

variable (heap : Heap)

/-- Copying buffers, one after the other. -/
def copied (l : Handles) : Heap := l.foldl Handle.copied heap

/-- Destroying buffers, one after the other. -/
def destroyed (l : Handles) : Heap := l.foldl Handle.destroyed heap

def concatenate (l : Handles) : Bytes := l.flatMap (Handle.str heap)

def size (l : Handles) : Nat := (l.map (Handle.size heap)).sum

/-- `BufferList::remove_prefix`. The cut of the front buffer does not throw: it has more bytes. -/
def removePrefix (heap : Heap) : Handles → Nat → (Heap × Handles) × Except Exn Unit
  | l, 0 => ((heap, l), .ok ())
  | [], _ + 1 => ((heap, []), .error (.outOfRange "BufferList::remove_prefix"))
  | front :: rest, n + 1 =>
    if n + 1 < front.size heap then
      let cut := front.removePrefix heap (n + 1)
      ((cut.1.1, cut.1.2 :: rest), cut.2)
    else removePrefix (front.destroyed heap) rest (n + 1 - front.size heap)

/-- The loop of `BufferList::append`, over the buffers of the other list. `push_back` invalidates every
iterator of the queue that grows: if that is the queue the loop runs through (`self`), its next step uses
such an iterator, and has no defined outcome. -/
def appendLoop (self : Bool) (heap : Heap) (l : Handles) : Handles → Option (Heap × Handles)
  | [] => some (heap, l)
  | buf :: rest =>
    let grown := (buf.copied heap, l ++ [buf])
    if self then none else appendLoop self grown.1 grown.2 rest

end Handles

/-! ## Views -/

/-- A `std::string_view`: a piece of a string in memory, or of nothing. -/
structure View where
  data : Option Nat
  offset : Nat
  size : Nat
deriving DecidableEq

namespace View

/-- The view of what a buffer shows. -/
def ofHandle (heap : Heap) (b : Handle) : View :=
  ⟨b.storage, b.startingOffset, b.size heap⟩

/-- The bytes a view reads. -/
def str (heap : Heap) (v : View) : Bytes :=
  match v.data.bind heap.value with
  | none => []
  | some s => (s.drop v.offset).take v.size

/-- `remove_prefix` of a view with more bytes. -/
def removePrefix (v : View) (n : Nat) : View := ⟨v.data, v.offset + n, v.size - n⟩

end View

/-- A discontiguous string that owns nothing. -/
structure BufferViewList where
  views : List View
deriving DecidableEq

namespace BufferViewList

/-- The views of the buffers of a list. -/
def ofBufferList (heap : Heap) (l : Handles) : BufferViewList := ⟨l.map (View.ofHandle heap)⟩

variable (l : BufferViewList)

def size : Nat := (l.views.map View.size).sum

/-- The bytes of all views, as a system call that takes the pieces of `as_iovecs` reads them. -/
def concatenate (heap : Heap) : Bytes := l.views.flatMap (View.str heap)

/-- `remove_prefix`: discard the first `n` bytes, or throw when there are fewer. -/
def removePrefix (n : Nat) : BufferViewList × Except Exn Unit :=
  let pieces := removePieces View.size (fun v n _ => v.removePrefix n) "BufferListView::remove_prefix"
    l.views n
  (⟨pieces.1⟩, pieces.2)

end BufferViewList

/-! ## Programs -/

namespace Storage

/-- A variable that owns strings. -/
inductive Var
  | buffer (b : Handle)
  | list (l : Handles)
deriving DecidableEq

namespace Var

def handles : Var → Handles
  | .buffer b => [b]
  | .list l => l

/-- The bytes a variable shows. -/
def contents (heap : Heap) (x : Var) : Bytes := Handles.concatenate heap x.handles

end Var

/-- The heap, and the variables of a program. -/
structure World where
  heap : Heap
  vars : List Var

/-- What a program does with its variables. -/
inductive Op
  /-- A new buffer that takes ownership of a string. -/
  | makeBuffer (s : Bytes)
  /-- A new buffer with no storage. -/
  | emptyBuffer
  /-- A new list with no buffers. -/
  | emptyList
  /-- A new list of one buffer, copied from a variable. -/
  | wrap (i : Nat)
  /-- A new copy of a variable. -/
  | copy (i : Nat)
  /-- `Buffer::remove_prefix`. -/
  | consume (i n : Nat)
  /-- `BufferList::append`: the list `i` gets the buffers of the list `j`. -/
  | append (i j : Nat)
  /-- `BufferList::remove_prefix`. -/
  | removePrefix (i n : Nat)
  /-- A variable is destroyed; its place is left with an empty list. -/
  | leave (i : Nat)
deriving DecidableEq

namespace World

/-- No variables, and nothing stored. -/
def start : World := ⟨Shared.empty, []⟩

variable (w : World)

/-- The bytes variable `i` shows. -/
def contents (i : Nat) : Bytes :=
  match w.vars[i]? with
  | none => []
  | some x => x.contents w.heap

/-- A new variable, behind the others. -/
def add (heap : Heap) (x : Var) : World := ⟨heap, w.vars ++ [x]⟩

/-- A new value of variable `i`. -/
def assign (i : Nat) (heap : Heap) (x : Var) : World := ⟨heap, w.vars.set i x⟩

/-- `Buffer::remove_prefix`, on variable `i`. -/
def consume (i n : Nat) : World × Except Exn Unit :=
  match w.vars[i]? with
  | some (.buffer b) =>
    let cut := b.removePrefix w.heap n
    (w.assign i cut.1.1 (.buffer cut.1.2), cut.2)
  | _ => (w, .ok ())

/-- `BufferList::append`, on variable `i` with variable `j`. -/
def append (i j : Nat) : Option World :=
  match w.vars[i]?, w.vars[j]? with
  | some (.list l), some (.list other) =>
    (l.appendLoop (i = j) w.heap other).map fun grown => w.assign i grown.1 (.list grown.2)
  | _, _ => some w

/-- `BufferList::remove_prefix`, on variable `i`. -/
def removePrefix (i n : Nat) : World × Except Exn Unit :=
  match w.vars[i]? with
  | some (.list l) =>
    let cut := l.removePrefix w.heap n
    (w.assign i cut.1.1 (.list cut.1.2), cut.2)
  | _ => (w, .ok ())

def step : Op → Option World
  | .makeBuffer s => some (w.add (w.heap.make s) (.buffer ⟨some w.heap.next, 0⟩))
  | .emptyBuffer => some (w.add w.heap (.buffer ⟨none, 0⟩))
  | .emptyList => some (w.add w.heap (.list []))
  | .wrap i =>
    match w.vars[i]? with
    | some (.buffer b) => some (w.add (b.copied w.heap) (.list [b]))
    | _ => some w
  | .copy i =>
    match w.vars[i]? with
    | some x => some (w.add (x.handles.copied w.heap) x)
    | none => some w
  | .consume i n => some (w.consume i n).1
  | .append i j => w.append i j
  | .removePrefix i n => some (w.removePrefix i n).1
  | .leave i =>
    match w.vars[i]? with
    | some x => some (w.assign i (x.handles.destroyed w.heap) (.list []))
    | none => some w

end World

end Storage

end Sponge
