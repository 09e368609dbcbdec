import Sponge.Lib.SortedMap
import Sponge.Lib.Word
import Sponge.Stream.ByteStream

/-!
# The stream reassembler

`libsponge/stream_reassembler.cc`: substrings of a byte stream arrive in any order, overlapping and
repeated, and leave as one in-order stream. A push runs five stages: note the end index, merge the
substring into the map of unassembled substrings (`pushUnassem`), trim the map to the capacity
(`fixCap`), move the substrings that start at the expected index to the assembled buffer (`assem`),
and write that buffer to the output (`writeStr`).

The map `unassemBuf` is `SortedMap Nat Bytes`, and the source's iterators are the list of entries
they run through, taken before the loop that erases. Sums of an index and a length are 64-bit sums;
`expectIdx` counts bytes really assembled and is a natural.

Two places of the source leave the defined behaviour of `std::map`.

- `iterL--` in `pushUnassem` steps back from `begin()`. libstdc++ then yields `end()` or the same
  element; both lead to `iterL = iterR`, and so does the model.
- the loop of `fixCap` steps back from `begin()` when the overflow is not smaller than everything
  stored. `fixCapLoop` answers `none` there, and `fixCap` then leaves the map empty.
-/

namespace Sponge

open Word64 (add sub)

/-- One stored substring: its index and its bytes. -/
abbrev Entry := Nat × Bytes

/-- The end of a stored substring, as the source computes it. -/
def Entry.stop (e : Entry) : Nat := add e.1 e.2.length

/-- The reassembler's state. -/
structure StreamReassembler where
  output : ByteStream
  capacity : Nat
  unassemBuf : SortedMap Nat Bytes
  assemBuf : Bytes
  expectIdx : Nat
  unassemSize : Nat
  eofIndex : Nat
deriving DecidableEq

namespace StreamReassembler

/-- A reassembler that stores up to `capacity` bytes. The end index starts as `size_t(-1)`. -/
def new (capacity : Nat) : StreamReassembler where
  output := ByteStream.new capacity
  capacity := capacity
  unassemBuf := SortedMap.empty
  assemBuf := []
  expectIdx := 0
  unassemSize := 0
  eofIndex := 2 ^ 64 - 1

variable (r : StreamReassembler)

/-! ## Merging a substring into the map -/

/-- The right-hand loop of `pushUnassem`: run through the entries that start below `bound`, and keep
the greatest end. Answers the right bound and the entries run through. -/
def mergeRight (bound : Nat) : List Entry → Nat → Nat × List Entry
  | [], rightBound => (rightBound, [])
  | e :: rest, rightBound =>
    if e.1 < bound then
      let out := mergeRight bound rest (max rightBound (Entry.stop e))
      (out.1, e :: out.2)
    else (rightBound, [])

/-- The left neighbour of `validIdx` when it reaches past `validIdx`: the entry `iterL` ends up at
when it is not `iterR` itself. -/
def leftNeighbour (buf : SortedMap Nat Bytes) (validIdx : Nat) : Option Entry :=
  match buf.lower? validIdx with
  | some e => if Entry.stop e ≤ validIdx then none else some e
  | none => none

/-- The entry `iterL` points at: that left neighbour, or the substring itself. -/
def leftEnd (buf : SortedMap Nat Bytes) (validIdx : Nat) (validStr : Bytes) : Entry :=
  (leftNeighbour buf validIdx).getD (validIdx, validStr)

/-- The right bound, and the entries of the half-open range from `iterL` to `iterR`. -/
def mergeRange (buf : SortedMap Nat Bytes) (validIdx : Nat) (validStr : Bytes) (rightBound : Nat) :
    Nat × List Entry :=
  let right := mergeRight (add validIdx validStr.length) (buf.from validIdx)
    (max (Entry.stop (leftEnd buf validIdx validStr)) rightBound)
  (right.1, (leftNeighbour buf validIdx).toList ++ right.2)

/-- `mergedStr`: a filler string from `iterL` to the right bound, painted with the range's entries. -/
def mergedStr (buf : SortedMap Nat Bytes) (validIdx : Nat) (validStr : Bytes) (rightBound : Nat) :
    Bytes :=
  let leftBound := (leftEnd buf validIdx validStr).1
  let range := mergeRange buf validIdx validStr rightBound
  List.paint leftBound (List.replicate (sub range.1 leftBound) filler) range.2

/-- The second half of `pushUnassem`: `validStr` has just been stored at `validIdx`; merge it with
the left neighbour it overlaps and with every entry that starts below its end. The entry at `iterL`
takes the merged string, and the entries after it in the range are erased. -/
def mergeAt (buf : SortedMap Nat Bytes) (validIdx : Nat) (validStr : Bytes) (rightBound : Nat) :
    SortedMap Nat Bytes :=
  (mergeRange buf validIdx validStr rightBound).2.tail.foldl (fun m e => m.erase e.1)
    (buf.insert (leftEnd buf validIdx validStr).1 (mergedStr buf validIdx validStr rightBound))

/-- `pushUnassem`: drop what is already assembled, store the rest at its index unless a longer
substring stands there, and merge. -/
def pushUnassem (data : Bytes) (index : Nat) : StreamReassembler :=
  let rightBound := add index data.length
  if rightBound ≤ r.expectIdx then r
  else
    let validIdx := if index < r.expectIdx then r.expectIdx else index
    let validStr := if index < r.expectIdx then data.drop (r.expectIdx - index) else data
    let store := { r with
      unassemBuf := mergeAt (r.unassemBuf.insert validIdx validStr) validIdx validStr rightBound }
    match r.unassemBuf.find? validIdx with
    | none => store
    | some old => if validStr.length ≤ old.length then r else store

/-! ## Capacity, assembly, output -/

/-- The bytes stored in a list of entries. -/
def storedBytes (entries : List Entry) : Nat := (entries.map (·.2.length)).sum

/-- The eviction loop of `fixCap`, from the last entry back: erase entries while they fit into the
overflow, then cut the one that does not. `none` when the loop steps back from the first entry. -/
def fixCapLoop : List Entry → Nat → SortedMap Nat Bytes → Option (SortedMap Nat Bytes)
  | [], _, _ => none
  | e :: before, overflowSize, buf =>
    if e.2.length ≤ overflowSize then fixCapLoop before (overflowSize - e.2.length) (buf.erase e.1)
    else some (buf.insert e.1 (e.2.take (e.2.length - overflowSize)))

/-- `fixCap`: trim the map so that it and the assembled buffer stay within the capacity. A loop
that runs off the map leaves it empty. -/
def fixCap : StreamReassembler :=
  if r.unassemBuf.size = 0 then r
  else
    let temp := storedBytes r.unassemBuf.entries
    if r.assemBuf.length + temp < r.capacity then r
    else
      let trimmed := fixCapLoop r.unassemBuf.entries.reverse
        (r.assemBuf.length + temp - r.capacity) r.unassemBuf
      { r with unassemBuf := trimmed.getD SortedMap.empty }

/-- The loop of `assem`: move entries to the assembled buffer while they start at the expected
index. -/
def assemLoop (r : StreamReassembler) : List Entry → StreamReassembler
  | [] => r
  | e :: rest =>
    if e.1 = r.expectIdx then
      assemLoop { r with
        assemBuf := r.assemBuf ++ e.2
        expectIdx := r.expectIdx + e.2.length
        unassemBuf := r.unassemBuf.erase e.1 } rest
    else r

/-- `assem`: run the loop, then count what is left. -/
def assem : StreamReassembler :=
  let out := assemLoop r r.unassemBuf.entries
  { out with unassemSize := storedBytes out.unassemBuf.entries }

/-- `writeStr`: hand the assembled buffer to the output, and keep what it did not take. -/
def writeStr : StreamReassembler :=
  { r with
    output := (r.output.write r.assemBuf).1
    assemBuf := r.assemBuf.drop (r.output.write r.assemBuf).2 }

/-- The last stage of a push: end the output once everything up to the end index is written. -/
def endOutput : StreamReassembler :=
  if r.assemBuf.length = 0 ∧ r.expectIdx = r.eofIndex then { r with output := r.output.endInput }
  else r

/-- `push_substring`. -/
def pushSubstring (data : Bytes) (index : Nat) (eof : Bool) : StreamReassembler :=
  let noted := if eof then { r with eofIndex := add index data.length } else r
  (noted.pushUnassem data index).fixCap.assem.writeStr.endOutput

/-- `unassembled_bytes`. -/
def unassembledBytes : Nat := r.unassemSize

/-- `empty`: is nothing waiting to be assembled or written? -/
def empty : Bool := r.unassemSize + r.assemBuf.length == 0

/-- The reader of the output pops bytes: `stream_out().pop_output`, and `read`, which returns what
`peek_output` shows first. -/
def popOutput (len : Nat) : StreamReassembler := { r with output := r.output.popOutput len }

end StreamReassembler

end Sponge
