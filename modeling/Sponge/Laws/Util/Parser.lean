import Mathlib.Data.List.Induction
import Sponge.Util.Parser

/-!
# Laws.Util.Parser — where a parser stands in its packet

`Read b k p` says that `p` was asked for the first `k` bytes of the packet `b`: it stands behind them
if the packet has them, and is in error otherwise. Each read of a parser moves `k` by its width
(`Read.parseInt`), so a chain of reads is followed by adding widths, and the values read are the
integers of the packet at those places (`wireInt`).

`Before p bytes` is the other direction: the parser stands before bytes that were written, and each
read answers what was written first and leaves the parser before the rest. `Before.takes` turns it
round: whatever bytes the parser stands before, writing the integer it reads writes them again.
-/

namespace Sponge

/-- The integer of `len` bytes at index `k` of a packet, most significant byte first. -/
def wireInt (b : Bytes) (k len : Nat) : Nat := NetParser.shiftIn len ((b.drop k).take len)

theorem shiftIn_lt (len : Nat) (bytes : Bytes) : NetParser.shiftIn len bytes < 2 ^ (8 * len) := by
  rcases List.eq_nil_or_concat bytes with rfl | ⟨front, last, rfl⟩
  · exact Nat.two_pow_pos _
  · rw [NetParser.shiftIn, List.concat_eq_append, List.foldl_append]
    exact Nat.mod_lt _ (Nat.two_pow_pos _)

theorem wireInt_lt (b : Bytes) (k len : Nat) : wireInt b k len < 2 ^ (8 * len) := shiftIn_lt _ _

namespace NetParser

/-- The parser was asked for the first `k` bytes of `b`. -/
structure Read (b : Bytes) (k : Nat) (p : NetParser) : Prop where
  within : k ≤ b.length → p.error = .noError ∧ p.buffer.str = b.drop k
  beyond : b.length < k → p.error ≠ .noError

variable {b : Bytes} {k : Nat} {p : NetParser}

theorem read_new (buffer : Buffer) : Read buffer.str 0 (new buffer) :=
  ⟨fun _ => ⟨rfl, List.drop_zero.symm⟩, fun h => absurd h (Nat.not_lt_zero _)⟩

theorem Read.error_eq (h : Read b k p) : p.error = .noError ↔ k ≤ b.length :=
  ⟨fun herr => Nat.le_of_not_lt fun hlt => h.beyond hlt herr, fun hle => (h.within hle).1⟩

/-- The check sets the error when the packet ends too early, and is silent otherwise. -/
theorem Read.checkSize (h : Read b k p) (n : Nat) :
    (k + n ≤ b.length → p.checkSize n = p ∧ n ≤ p.buffer.size) ∧
      (b.length < k + n → (p.checkSize n).error ≠ .noError) := by
  unfold NetParser.checkSize
  refine ⟨fun hle => ?_, fun hlt => ?_⟩
  · have hsize : p.buffer.size = b.length - k := by
      rw [Buffer.size, (h.within (by omega)).2, List.length_drop]
    have henough : n ≤ p.buffer.size := by omega
    exact ⟨if_neg (Nat.not_lt_of_le henough), henough⟩
  · split
    · exact fun herr => by cases herr
    · next hsize =>
      -- the check found enough bytes, so the parser was past the end before
      refine h.beyond (Nat.lt_of_not_le fun hle => hsize ?_)
      rw [Buffer.size, (h.within hle).2, List.length_drop]
      omega

/-- Skipping `n` bytes moves the parser by `n`. -/
theorem Read.removePrefix (h : Read b k p) (n : Nat) : Read b (k + n) (p.removePrefix n) := by
  obtain ⟨hgood, hbad⟩ := h.checkSize n
  unfold NetParser.removePrefix
  dsimp only
  refine ⟨fun hle => ?_, fun hlt => ?_⟩
  · obtain ⟨hsame, henough⟩ := hgood hle
    obtain ⟨herr, hstr⟩ := h.within (by omega)
    rw [hsame, if_neg (not_not.mpr herr), dif_pos henough]
    refine ⟨herr, ?_⟩
    rw [Buffer.str_advance, hstr, List.drop_drop]
  · rw [if_pos (hbad hlt)]
    exact hbad hlt

/-- Reading an integer moves the parser as skipping its bytes does. -/
theorem parseInt_snd (p : NetParser) (n : Nat) : (p.parseInt n).2 = p.removePrefix n := by
  unfold parseInt NetParser.removePrefix
  dsimp only
  split
  · rfl
  · split <;> rfl

/-- **A read of `n` bytes moves the parser by `n`.** -/
theorem Read.parseInt (h : Read b k p) (n : Nat) : Read b (k + n) (p.parseInt n).2 := by
  rw [parseInt_snd]
  exact h.removePrefix n

/-- The value read is the packet's integer at the parser's place. -/
theorem Read.parseInt_fst (h : Read b k p) {n : Nat} (enough : k + n ≤ b.length) :
    (p.parseInt n).1 = wireInt b k n := by
  obtain ⟨hsame, hle⟩ := (h.checkSize n).1 enough
  obtain ⟨herr, hstr⟩ := h.within (by omega)
  unfold NetParser.parseInt
  dsimp only
  rw [hsame, if_neg (not_not.mpr herr), dif_pos hle, hstr]
  rfl

theorem Read.u8 (h : Read b k p) : Read b (k + 1) p.u8.2 := h.parseInt 1

theorem Read.u16 (h : Read b k p) : Read b (k + 2) p.u16.2 := h.parseInt 2

theorem Read.u32 (h : Read b k p) : Read b (k + 4) p.u32.2 := h.parseInt 4

theorem Read.u8_fst (h : Read b k p) (enough : k + 1 ≤ b.length) :
    p.u8.1.toNat = wireInt b k 1 := by
  show ((p.parseInt 1).1.toUInt8).toNat = _
  rw [h.parseInt_fst enough, Nat.toUInt8_eq, UInt8.toNat_ofNat', Nat.mod_eq_of_lt (wireInt_lt b k 1)]

theorem Read.u16_fst (h : Read b k p) (enough : k + 2 ≤ b.length) :
    p.u16.1.toNat = wireInt b k 2 := by
  show ((p.parseInt 2).1.toUInt16).toNat = _
  rw [h.parseInt_fst enough, Nat.toUInt16_eq, UInt16.toNat_ofNat',
    Nat.mod_eq_of_lt (wireInt_lt b k 2)]

theorem Read.u32_fst (h : Read b k p) (enough : k + 4 ≤ b.length) :
    p.u32.1.toNat = wireInt b k 4 := by
  show ((p.parseInt 4).1.toUInt32).toNat = _
  rw [h.parseInt_fst enough, Nat.toUInt32_eq, UInt32.toNat_ofNat',
    Nat.mod_eq_of_lt (wireInt_lt b k 4)]

/-! ## Reading what was written -/

/-- The parser has no error and stands before these bytes. -/
structure Before (p : NetParser) (bytes : Bytes) : Prop where
  good : p.error = .noError
  str : p.buffer.str = bytes

variable {rest : Bytes}

theorem before_new (buffer : Buffer) : (new buffer).Before buffer.str := ⟨rfl, rfl⟩

theorem Before.read (h : p.Before b) : Read b 0 p :=
  ⟨fun _ => ⟨h.good, h.str⟩, fun hlt => absurd hlt (Nat.not_lt_zero _)⟩

/-- Skipping a front leaves the parser before the rest. -/
theorem Before.removePrefix {front : Bytes} (h : p.Before (front ++ rest)) {n : Nat}
    (len : front.length = n) : (p.removePrefix n).Before rest := by
  have hskip := h.read.removePrefix n
  obtain ⟨hgood, hstr⟩ := hskip.within (by simp [len])
  refine ⟨hgood, ?_⟩
  rw [hstr, Nat.zero_add, ← len, List.drop_left]

/-- The last byte written is the lowest one. -/
theorem unparseInt_succ (n val : Nat) :
    NetUnparser.unparseInt (n + 1) val = NetUnparser.unparseInt n (val / 2 ^ 8) ++ [val.toUInt8] := by
  unfold NetUnparser.unparseInt
  rw [List.range_succ, List.map_append, List.map_singleton]
  congr 1
  · apply List.map_congr_left
    intro i hi
    have hlt := List.mem_range.mp hi
    rw [← Nat.shiftRight_eq_div_pow, ← Nat.shiftRight_add]
    congr 2
    omega
  · simp

/-- What the loop of `_parse_int` makes of the bytes `_unparse_int` wrote. -/
theorem foldl_unparseInt {n len : Nat} (le : n ≤ len) (val : Nat) :
    (NetUnparser.unparseInt n val).foldl
      (fun ret byte => (ret * 2 ^ 8 + byte.toNat) % 2 ^ (8 * len)) 0 = val % 2 ^ (8 * n) := by
  induction n generalizing val with
  | zero => simp [NetUnparser.unparseInt, Nat.mod_one]
  | succ n ih =>
    have hpow : 2 ^ (8 * (n + 1)) = 2 ^ 8 * 2 ^ (8 * n) := by rw [← Nat.pow_add]; congr 1; omega
    have hmod : val % 2 ^ (8 * (n + 1)) = val % 2 ^ 8 + 2 ^ 8 * (val / 2 ^ 8 % 2 ^ (8 * n)) := by
      rw [hpow, Nat.mod_mul]
    have hfits : val % 2 ^ (8 * (n + 1)) < 2 ^ (8 * len) :=
      Nat.lt_of_lt_of_le (Nat.mod_lt _ (Nat.two_pow_pos _)) (Nat.pow_le_pow_right (by decide) (by omega))
    rw [unparseInt_succ, List.foldl_append, ih (by omega), List.foldl_cons, List.foldl_nil,
      Nat.toUInt8_eq, UInt8.toNat_ofNat', hmod]
    rw [hmod] at hfits
    rw [Nat.mod_eq_of_lt (by omega)]
    omega

/-- Reading an integer that was written there, and going on behind it. -/
theorem Before.parseInt {n val : Nat} (h : p.Before (NetUnparser.unparseInt n val ++ rest)) :
    (p.parseInt n).1 = val % 2 ^ (8 * n) ∧ (p.parseInt n).2.Before rest := by
  have hlen : (NetUnparser.unparseInt n val).length = n := by simp [NetUnparser.unparseInt]
  constructor
  · rw [h.read.parseInt_fst (by simp [hlen]), wireInt, List.drop_zero,
      List.take_append_of_le_length (by omega), List.take_of_length_le (by omega)]
    exact foldl_unparseInt (Nat.le_refl n) val
  · rw [parseInt_snd]
    exact h.removePrefix hlen

theorem Before.u8 {val : UInt8} (h : p.Before (NetUnparser.u8 val ++ rest)) :
    p.u8.1 = val ∧ p.u8.2.Before rest := by
  obtain ⟨hval, hrest⟩ := Before.parseInt h
  refine ⟨UInt8.toNat_inj.mp ?_, hrest⟩
  have hlt := val.toNat_lt
  show ((p.parseInt 1).1.toUInt8).toNat = _
  rw [hval, Nat.toUInt8_eq, UInt8.toNat_ofNat']
  omega

theorem Before.u16 {val : UInt16} (h : p.Before (NetUnparser.u16 val ++ rest)) :
    p.u16.1 = val ∧ p.u16.2.Before rest := by
  obtain ⟨hval, hrest⟩ := Before.parseInt h
  refine ⟨UInt16.toNat_inj.mp ?_, hrest⟩
  have hlt := val.toNat_lt
  show ((p.parseInt 2).1.toUInt16).toNat = _
  rw [hval, Nat.toUInt16_eq, UInt16.toNat_ofNat']
  omega

theorem Before.u32 {val : UInt32} (h : p.Before (NetUnparser.u32 val ++ rest)) :
    p.u32.1 = val ∧ p.u32.2.Before rest := by
  obtain ⟨hval, hrest⟩ := Before.parseInt h
  refine ⟨UInt32.toNat_inj.mp ?_, hrest⟩
  have hlt := val.toNat_lt
  show ((p.parseInt 4).1.toUInt32).toNat = _
  rw [hval, Nat.toUInt32_eq, UInt32.toNat_ofNat']
  omega

/-- Reading single bytes that were written there. -/
theorem Before.bytes {bytes : Bytes} {n : Nat} (len : bytes.length = n)
    (h : p.Before (bytes.flatMap NetUnparser.u8 ++ rest)) :
    (NetParser.bytes n p).1 = bytes ∧ (NetParser.bytes n p).2.Before rest := by
  induction bytes generalizing n p with
  | nil =>
    subst len
    exact ⟨rfl, h⟩
  | cons byte bytes ih =>
    subst len
    rw [List.flatMap_cons, List.append_assoc] at h
    obtain ⟨hbyte, h⟩ := h.u8
    obtain ⟨hbytes, hrest⟩ := ih rfl h
    refine ⟨?_, hrest⟩
    show p.u8.1 :: (NetParser.bytes bytes.length p.u8.2).1 = _
    rw [hbyte, hbytes]

/-! ## Writing what was read -/

/-- What the loop of `_parse_int` makes of `n` bytes has `8 * n` bits, and `_unparse_int` writes the
bytes again. -/
theorem unparseInt_foldl {len : Nat} (bytes : Bytes) (le : bytes.length ≤ len) :
    let val := bytes.foldl (fun ret byte => (ret * 2 ^ 8 + byte.toNat) % 2 ^ (8 * len)) 0
    val < 2 ^ (8 * bytes.length) ∧ NetUnparser.unparseInt bytes.length val = bytes := by
  induction bytes using List.reverseRecOn with
  | nil => exact ⟨Nat.one_pos, rfl⟩
  | append_singleton front last ih =>
    rw [List.length_append, List.length_singleton] at le ⊢
    obtain ⟨hlt, hfront⟩ := ih (by omega)
    rw [List.foldl_append, List.foldl_cons, List.foldl_nil]
    generalize front.foldl _ 0 = val at *
    have hlast := last.toNat_lt
    have hpow : 2 ^ (8 * (front.length + 1)) = 2 ^ 8 * 2 ^ (8 * front.length) := by
      rw [← Nat.pow_add]
      congr 1
      omega
    have hbound : val * 2 ^ 8 + last.toNat < 2 ^ (8 * (front.length + 1)) := by
      rw [hpow]
      omega
    -- the sum has the width of the bytes so far, so the loop's own width does not cut it
    have hkeep : (val * 2 ^ 8 + last.toNat) % 2 ^ (8 * len) = val * 2 ^ 8 + last.toNat :=
      Nat.mod_eq_of_lt (Nat.lt_of_lt_of_le hbound (Nat.pow_le_pow_right (by decide) (by omega)))
    have hhigh : (val * 2 ^ 8 + last.toNat) / 2 ^ 8 = val := by omega
    have hlow : (val * 2 ^ 8 + last.toNat).toUInt8 = last := by
      apply UInt8.toNat_inj.mp
      rw [Nat.toUInt8_eq, UInt8.toNat_ofNat']
      omega
    dsimp only
    rw [hkeep, unparseInt_succ, hhigh, hlow, hfront]
    exact ⟨hbound, rfl⟩

/-- Whatever the parser stands before, the integer it reads is written as those bytes. -/
theorem Before.takes (h : p.Before b) {n : Nat} (enough : n ≤ b.length) :
    ∃ rest, b = NetUnparser.unparseInt n (p.parseInt n).1 ++ rest ∧ rest.length + n = b.length ∧
      (p.parseInt n).2.Before rest := by
  have hlen : (b.take n).length = n := by
    rw [List.length_take]
    omega
  refine ⟨b.drop n, ?_, by rw [List.length_drop]; omega, ?_⟩
  · rw [h.read.parseInt_fst (by omega), wireInt, List.drop_zero]
    have hwritten := (unparseInt_foldl (b.take n) (Nat.le_of_eq hlen)).2
    rw [hlen] at hwritten
    rw [shiftIn, hwritten, List.take_append_drop]
  · obtain ⟨hgood, hstr⟩ := (h.read.parseInt n).within (by omega)
    exact ⟨hgood, by rw [hstr, Nat.zero_add]⟩

theorem Before.takes_u8 (h : p.Before b) (enough : 1 ≤ b.length) :
    ∃ rest, b = NetUnparser.u8 p.u8.1 ++ rest ∧ rest.length + 1 = b.length ∧ p.u8.2.Before rest := by
  have hval : p.u8.1.toNat = (p.parseInt 1).1 := by
    rw [h.read.u8_fst (by omega), h.read.parseInt_fst (by omega)]
  rw [NetUnparser.u8, hval]
  exact h.takes enough

theorem Before.takes_u16 (h : p.Before b) (enough : 2 ≤ b.length) :
    ∃ rest, b = NetUnparser.u16 p.u16.1 ++ rest ∧ rest.length + 2 = b.length ∧
      p.u16.2.Before rest := by
  have hval : p.u16.1.toNat = (p.parseInt 2).1 := by
    rw [h.read.u16_fst (by omega), h.read.parseInt_fst (by omega)]
  rw [NetUnparser.u16, hval]
  exact h.takes enough

theorem Before.takes_u32 (h : p.Before b) (enough : 4 ≤ b.length) :
    ∃ rest, b = NetUnparser.u32 p.u32.1 ++ rest ∧ rest.length + 4 = b.length ∧
      p.u32.2.Before rest := by
  have hval : p.u32.1.toNat = (p.parseInt 4).1 := by
    rw [h.read.u32_fst (by omega), h.read.parseInt_fst (by omega)]
  rw [NetUnparser.u32, hval]
  exact h.takes enough

end NetParser

end Sponge
