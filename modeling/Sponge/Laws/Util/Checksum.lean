import Sponge.Lib.OnesComplement
import Sponge.Util.Parser

/-!
# Laws.Util.Checksum — the checksum is a ones' complement sum

`wordSum` is the sum of the big-endian 16-bit words of a string, taken without carry: a byte counts
256-fold when it is the upper half of its word. As long as the total stays below `2 ^ 32`, the
checksum of a string is the complement of that sum, folded (`checksum_toNat`).

`add` may be called piece by piece: the parity carries over a piece of odd length, so only the
concatenation counts (`foldl_add`). `checksum_pieces` says what the value is then, in the words of the
definition: the complement of the words' sum with end-around carry.

`checksum_sealed` is what both headers rely on: the checksum taken with a zero checksum field, written
into that field, makes the checksum over everything zero.
-/

namespace Sponge

open OnesComplement (reduce)

/-- The sum of the words of a string; `parity` says that its first byte is the lower half of one. -/
def wordSum : Bool → Bytes → Nat
  | _, [] => 0
  | parity, byte :: rest => (if parity then byte.toNat else byte.toNat * 2 ^ 8) + wordSum (!parity) rest

/-- The checksum over a string, from an initial sum. -/
def checksum (initialSum : UInt32) (b : Bytes) : UInt16 :=
  ((InternetChecksum.new initialSum).add b).value

/-- A byte adds at most 255 times 256. -/
theorem wordSum_le (parity : Bool) (b : Bytes) : wordSum parity b ≤ 65280 * b.length := by
  induction b generalizing parity with
  | nil => simp [wordSum]
  | cons byte rest ih =>
    have hbyte := byte.toNat_lt
    have hrest := ih (!parity)
    rw [wordSum, List.length_cons]
    split <;> omega

/-- Behind an even number of bytes the words start afresh. -/
theorem wordSum_append (parity : Bool) {front : Bytes} (even : front.length % 2 = 0) (rest : Bytes) :
    wordSum parity (front ++ rest) = wordSum parity front + wordSum parity rest := by
  match front with
  | [] => simp [wordSum]
  | [_] => simp at even
  | a :: b :: front =>
    have heven : front.length % 2 = 0 := by
      simp only [List.length_cons] at even
      omega
    have hrest := wordSum_append parity heven rest
    simp only [List.cons_append, wordSum, Bool.not_not, hrest]
    omega

theorem wordSum_u16 (val : UInt16) : wordSum false (NetUnparser.u16 val) = val.toNat := by
  have hval := val.toNat_lt
  have hbytes : NetUnparser.u16 val = [(val.toNat >>> 8).toUInt8, (val.toNat >>> 0).toUInt8] := rfl
  simp only [hbytes, wordSum, Bool.not_false, Bool.false_eq_true, if_false, if_true, Nat.toUInt8_eq,
    UInt8.toNat_ofNat', Nat.shiftRight_eq_div_pow]
  omega

namespace InternetChecksum

/-- Each byte is added with the weight of its place, in 32 bits. -/
theorem add_sum (c : InternetChecksum) (data : Bytes) :
    (c.add data).sum.toNat = (c.sum.toNat + wordSum c.parity data) % 2 ^ 32 := by
  induction data generalizing c with
  | nil => simp [add, wordSum, Nat.mod_eq_of_lt c.sum.toNat_lt]
  | cons byte rest ih =>
    have hbyte := byte.toNat_lt
    have hval : (c.addByte byte).sum.toNat =
        (c.sum.toNat + if c.parity then byte.toNat else byte.toNat * 2 ^ 8) % 2 ^ 32 := by
      unfold addByte
      cases c.parity with
      | true => simp
      | false =>
        have hshift : (byte.toUInt16 <<< 8).toUInt32.toNat = byte.toNat * 2 ^ 8 := by
          rw [UInt16.toNat_toUInt32, UInt16.toNat_shiftLeft, UInt8.toNat_toUInt16]
          show byte.toNat <<< 8 % 2 ^ 16 = _
          rw [Nat.shiftLeft_eq]
          omega
        simp only [Bool.false_eq_true, if_false, UInt32.toNat_add, hshift]
    have hparity : (c.addByte byte).parity = !c.parity := rfl
    show ((c.addByte byte).add rest).sum.toNat = _
    rw [ih, hval, hparity, wordSum]
    omega

theorem fold_toNat (sum : UInt32) :
    (if 0xffff < sum then fold sum else sum).toNat = OnesComplement.fold sum.toNat := by
  have hsum := sum.toNat_lt
  have hiff : 0xffff < sum ↔ 0xffff < sum.toNat := UInt32.lt_iff_toNat_lt
  unfold OnesComplement.fold
  by_cases hlarge : 0xffff < sum.toNat
  · have hshift : (sum >>> 16).toNat = sum.toNat / 2 ^ 16 := by
      rw [UInt32.toNat_shiftRight]
      exact Nat.shiftRight_eq_div_pow _ 16
    have hand : (sum &&& 0xffff).toNat = sum.toNat % 2 ^ 16 := by
      rw [UInt32.toNat_and]
      exact Nat.and_two_pow_sub_one_eq_mod _ 16
    rw [if_pos (hiff.mpr hlarge), if_pos hlarge, fold, UInt32.toNat_add, hshift, hand]
    omega
  · rw [if_neg (fun hc => hlarge (hiff.mp hc)), if_neg hlarge]

/-- The value is the complement of the folded sum. -/
theorem value_toNat (c : InternetChecksum) : c.value.toNat = 0xffff - reduce c.sum.toNat := by
  have hle := OnesComplement.reduce_le c.sum.toNat_lt
  have htwice : (let once := if 0xffff < c.sum then fold c.sum else c.sum
      if 0xffff < once then fold once else once).toNat = reduce c.sum.toNat := by
    dsimp only
    rw [fold_toNat, fold_toNat]
    rfl
  unfold value
  dsimp only at htwice ⊢
  rw [UInt16.toNat_not, UInt32.toNat_toUInt16, htwice]
  show 2 ^ 16 - 1 - _ % 2 ^ 16 = _
  omega

end InternetChecksum

/-- **The checksum is the complement of the folded word sum**, for a total below `2 ^ 32`. -/
theorem checksum_toNat {initialSum : UInt32} {b : Bytes}
    (below : initialSum.toNat + wordSum false b < 2 ^ 32) :
    (checksum initialSum b).toNat = 0xffff - reduce (initialSum.toNat + wordSum false b) := by
  rw [checksum, InternetChecksum.value_toNat, InternetChecksum.add_sum]
  exact congrArg (fun s => 0xffff - reduce s) (Nat.mod_eq_of_lt below)

/-! ## Pieces and words -/

/-- The big-endian 16-bit words of a string, filled up with a zero byte to an even length. -/
def words : Bytes → List Nat
  | [] => []
  | [hi] => [hi.toNat * 2 ^ 8]
  | hi :: lo :: rest => (hi.toNat * 2 ^ 8 + lo.toNat) :: words rest

theorem words_le (b : Bytes) : ∀ w ∈ words b, w ≤ 0xffff := by
  intro w hw
  match b with
  | [] => cases hw
  | [hi] =>
    have hhi := hi.toNat_lt
    rw [List.mem_singleton.mp hw]
    omega
  | hi :: lo :: rest =>
    rcases List.mem_cons.mp hw with rfl | hw
    · have hhi := hi.toNat_lt
      have hlo := lo.toNat_lt
      omega
    · exact words_le rest w hw

theorem sum_words (b : Bytes) : (words b).sum = wordSum false b := by
  match b with
  | [] => rfl
  | [hi] => rfl
  | hi :: lo :: rest =>
    have hrest := sum_words rest
    simp only [words, List.sum_cons, wordSum, Bool.not_false, Bool.not_true, Bool.false_eq_true, if_false,
      if_true, hrest]
    omega

/-- Pieces added one after the other are their concatenation added at once. -/
theorem InternetChecksum.foldl_add (pieces : List Bytes) (c : InternetChecksum) :
    pieces.foldl add c = c.add pieces.flatten := by
  induction pieces generalizing c with
  | nil => rfl
  | cons piece pieces ih =>
    rw [List.foldl_cons, ih, List.flatten_cons, add, add, add, List.foldl_append]

/-- **The checksum of pieces.** It depends on the initial sum and the concatenation only; it is the
complement of the ones' complement sum of the initial sum, as two words, and the words of the
concatenation; and it is zero exactly when the plain total is a multiple of `0xffff` other than zero. -/
theorem checksum_pieces (initialSum : UInt32) (pieces : List Bytes)
    (below : initialSum.toNat + (words pieces.flatten).sum < 2 ^ 32) :
    let value := (pieces.foldl InternetChecksum.add (InternetChecksum.new initialSum)).value
    value = checksum initialSum pieces.flatten ∧
      value = ~~~ (OnesComplement.sum (initialSum.toNat / 2 ^ 16 :: initialSum.toNat % 2 ^ 16 ::
        words pieces.flatten)).toUInt16 ∧
      (value = 0 ↔ initialSum.toNat + (words pieces.flatten).sum ≠ 0 ∧
        65535 ∣ initialSum.toNat + (words pieces.flatten).sum) := by
  intro value
  have hvalue : value = checksum initialSum pieces.flatten :=
    congrArg InternetChecksum.value (InternetChecksum.foldl_add pieces _)
  have hnat := checksum_toNat (sum_words pieces.flatten ▸ below)
  rw [← hvalue, ← sum_words] at hnat
  have hhalves := OnesComplement.sum_halves (words_le pieces.flatten) below
  generalize words pieces.flatten = ws at *
  have hle := OnesComplement.reduce_le below
  refine ⟨hvalue, ?_, ?_⟩
  · apply UInt16.toNat_inj.mp
    rw [hnat, hhalves, UInt16.toNat_not, Nat.toUInt16_eq, UInt16.toNat_ofNat', UInt16.size]
    omega
  · have hzero : value = 0 ↔ value.toNat = 0 := UInt16.toNat_inj.symm
    have hmax := OnesComplement.reduce_eq_max below
    rw [hzero, hnat]
    omega

/-- An odd piece, an empty one, and a sum that comes out as a multiple of `0xffff`. -/
theorem checksum_pieces_odd :
    ([[0x12], [], [0x34, 0xed, 0xcb]].foldl InternetChecksum.add (InternetChecksum.new 0)).value = 0 := by
  obtain ⟨-, -, hzero⟩ := checksum_pieces 0 [[0x12], [], [0x34, 0xed, 0xcb]] (by decide)
  exact hzero.mpr (by decide)

/-- **A checksum written into its own field seals the string.** -/
theorem checksum_sealed {initialSum : UInt32} {front : Bytes} (even : front.length % 2 = 0)
    (rest : Bytes)
    (below : initialSum.toNat + 65280 * (front.length + 2 + rest.length) < 2 ^ 32) :
    checksum initialSum
      (front ++ NetUnparser.u16 (checksum initialSum (front ++ NetUnparser.u16 0 ++ rest)) ++ rest) =
        0 := by
  have hsum : ∀ val : UInt16, wordSum false (front ++ NetUnparser.u16 val ++ rest) =
      wordSum false front + val.toNat + wordSum false rest := by
    intro val
    have hword : (front ++ NetUnparser.u16 val).length % 2 = 0 := by
      have : (NetUnparser.u16 val).length = 2 := rfl
      rw [List.length_append]
      omega
    rw [wordSum_append false hword, wordSum_append false even, wordSum_u16]
  have hfront := wordSum_le false front
  have hrest := wordSum_le false rest
  have hzero : (checksum initialSum (front ++ NetUnparser.u16 0 ++ rest)).toNat =
      0xffff - reduce (initialSum.toNat + (wordSum false front + wordSum false rest)) := by
    rw [checksum_toNat (by rw [hsum]; simp only [UInt16.toNat_zero]; omega), hsum]
    simp only [UInt16.toNat_zero, Nat.add_zero]
  generalize checksum initialSum (front ++ NetUnparser.u16 0 ++ rest) = cksum at *
  generalize hs : initialSum.toNat + (wordSum false front + wordSum false rest) = s at *
  have hmax := OnesComplement.reduce_complement (s := s) (by omega)
  have htotal : initialSum.toNat + wordSum false (front ++ NetUnparser.u16 cksum ++ rest) =
      s + (0xffff - reduce s) := by
    rw [hsum, hzero]
    omega
  apply UInt16.toNat_inj.mp
  rw [checksum_toNat (by omega), htotal, hmax]
  rfl

end Sponge
