import Sponge.Util.Buffer

/-!
# Parsing and writing network integers, and the internet checksum

`libsponge/util/parser.cc` and the checksum of `libsponge/util/util.cc`. A `NetParser` is a buffer
with a sticky error: a read that finds too few bytes sets the error, and from then on every read
answers zero and consumes nothing. Integers are in network byte order.

The three widths of `_parse_int` and `_unparse_int` are one definition each, with the number of
bytes as its parameter.
-/

namespace Sponge

/-- The result of parsing a packet. -/
inductive ParseResult
  | noError
  | badChecksum
  | packetTooShort
  | wrongIPVersion
  | headerTooShort
  | truncatedPacket
  | unsupported
deriving DecidableEq, Repr

/-- The bytes not read yet, and the first error met. -/
structure NetParser where
  buffer : Buffer
  error : ParseResult
deriving DecidableEq

namespace NetParser

/-- A parser at the front of a buffer. -/
def new (buffer : Buffer) : NetParser := ⟨buffer, .noError⟩

variable (p : NetParser)

/-- `_check_size`: set the error when fewer than `size` bytes are left. -/
def checkSize (size : Nat) : NetParser :=
  if p.buffer.size < size then { p with error := .packetTooShort } else p

/-- The loop of `_parse_int`: shift in one byte after the other, in an integer of `len` bytes. -/
def shiftIn (len : Nat) (bytes : Bytes) : Nat :=
  bytes.foldl (fun ret byte => (ret * 2 ^ 8 + byte.toNat) % 2 ^ (8 * len)) 0

/-- `_parse_int` for an integer of `len` bytes. The range check of `Buffer::remove_prefix` cannot
fail after `checkSize`. -/
def parseInt (len : Nat) : Nat × NetParser :=
  let checked := p.checkSize len
  if checked.error ≠ .noError then (0, checked)
  else if enough : len ≤ p.buffer.size then
    (shiftIn len (p.buffer.str.take len), { checked with buffer := p.buffer.advance len enough })
  else (0, checked)

def u32 : UInt32 × NetParser := ((p.parseInt 4).1.toUInt32, (p.parseInt 4).2)

def u16 : UInt16 × NetParser := ((p.parseInt 2).1.toUInt16, (p.parseInt 2).2)

def u8 : UInt8 × NetParser := ((p.parseInt 1).1.toUInt8, (p.parseInt 1).2)

/-- `remove_prefix`: skip `n` bytes. -/
def removePrefix (n : Nat) : NetParser :=
  let checked := p.checkSize n
  if checked.error ≠ .noError then checked
  else if enough : n ≤ p.buffer.size then { checked with buffer := p.buffer.advance n enough }
  else checked

/-- Read single bytes into an address of `n` bytes. -/
def bytes : Nat → NetParser → Bytes × NetParser
  | 0, p => ([], p)
  | n + 1, p =>
    let rest := bytes n p.u8.2
    (p.u8.1 :: rest.1, rest.2)

end NetParser

namespace NetUnparser

/-- `_unparse_int` for an integer of `len` bytes: the most significant byte first. -/
def unparseInt (len val : Nat) : Bytes :=
  (List.range len).map fun i => (val >>> ((len - i - 1) * 8)).toUInt8

def u32 (val : UInt32) : Bytes := unparseInt 4 val.toNat

def u16 (val : UInt16) : Bytes := unparseInt 2 val.toNat

def u8 (val : UInt8) : Bytes := unparseInt 1 val.toNat

end NetUnparser

/-- `std::string::resize`: cut, or fill up with zeros. -/
def resize (s : Bytes) (n : Nat) : Bytes := s.take n ++ List.replicate (n - s.length) 0

/-- The running sum of 16-bit words, and whether the next byte is the low half of one. -/
structure InternetChecksum where
  sum : UInt32
  parity : Bool

namespace InternetChecksum

def new (initialSum : UInt32) : InternetChecksum := ⟨initialSum, false⟩

/-- One turn of the loop of `add`. -/
def addByte (c : InternetChecksum) (byte : UInt8) : InternetChecksum :=
  let val : UInt16 := if c.parity then byte.toUInt16 else byte.toUInt16 <<< 8
  ⟨c.sum + val.toUInt32, !c.parity⟩

def add (c : InternetChecksum) (data : Bytes) : InternetChecksum := data.foldl addByte c

/-- One turn of the loop of `value`: add the carry back in. -/
def fold (ret : UInt32) : UInt32 := (ret >>> 16) + (ret &&& 0xffff)

/-- `value`: fold until the sum has 16 bits, then complement. Two turns are enough for a 32-bit
sum (`fold_twice`). -/
def value (c : InternetChecksum) : UInt16 :=
  let once := if 0xffff < c.sum then fold c.sum else c.sum
  let twice := if 0xffff < once then fold once else once
  ~~~ twice.toUInt16

/-- The loop of `value` stops after two turns. -/
theorem fold_twice (sum : UInt32) : fold (fold sum) ≤ 0xffff := by
  have hand : ∀ x : UInt32, (x &&& 0xffff).toNat = x.toNat % 2 ^ 16 := fun x => by
    rw [UInt32.toNat_and]
    exact Nat.and_two_pow_sub_one_eq_mod _ 16
  have hfold : ∀ x : UInt32, (fold x).toNat = x.toNat / 2 ^ 16 + x.toNat % 2 ^ 16 := by
    intro x
    have hx := x.toNat_lt
    have hshift : (x >>> 16).toNat = x.toNat / 2 ^ 16 := by
      rw [UInt32.toNat_shiftRight, Nat.shiftRight_eq_div_pow]
      rfl
    rw [fold, UInt32.toNat_add, hshift, hand]
    omega
  have hsum := sum.toNat_lt
  rw [UInt32.le_iff_toNat_le, hfold, hfold]
  show _ ≤ 65535
  omega

end InternetChecksum

end Sponge
