import Mathlib.Data.List.Basic
import TransportStream.Crc

/-!
# The checksum at the end of a section

Shifting the register is linear and loses nothing, so that four more bytes make
it zero exactly if they are the checksum of what came before.  Therefore a
section is intact if and only if it ends in the checksum of the rest.
-/

namespace TransportStream
namespace Crc

/-!
## Shifting
-/

theorem shift_xor (r s : Register) : shift (r ^^^ s) = shift r ^^^ shift s := by
  unfold shift
  rw [BitVec.msb_xor, BitVec.shiftLeft_xor_distrib]
  cases r.msb with
  | false =>
      cases s.msb with
      | false => rfl
      | true => exact BitVec.xor_assoc _ _ _
  | true =>
      cases s.msb with
      | false =>
          show r <<< 1 ^^^ s <<< 1 ^^^ polynomial =
              r <<< 1 ^^^ polynomial ^^^ s <<< 1
          rw [BitVec.xor_assoc, BitVec.xor_comm (s <<< 1), BitVec.xor_assoc]
      | true =>
          -- The divisor is subtracted on both sides, and cancels.
          show r <<< 1 ^^^ s <<< 1 =
              r <<< 1 ^^^ polynomial ^^^ (s <<< 1 ^^^ polynomial)
          rw [BitVec.xor_comm (s <<< 1) polynomial, BitVec.xor_assoc,
            ← BitVec.xor_assoc polynomial polynomial, BitVec.xor_self,
            BitVec.zero_xor]

theorem toNat_shift {r : Register} (h : 2 * r.toNat < 2 ^ 32) :
    (shift r).toNat = 2 * r.toNat := by
  rw [shift, BitVec.msb_eq_false_iff_two_mul_lt.mpr h,
    if_neg Bool.false_ne_true, BitVec.toNat_shiftLeft, Nat.shiftLeft_eq,
    Nat.mul_comm, Nat.pow_one, Nat.mod_eq_of_lt h]

/-- The lowest bit of the divisor is set, so that only zero is shifted to
zero. -/
theorem shift_eq_zero_iff {r : Register} : shift r = 0#32 ↔ r = 0#32 := by
  constructor
  · intro h
    cases hmsb : r.msb with
    | false =>
        have htwice := toNat_shift (BitVec.msb_eq_false_iff_two_mul_lt.mp hmsb)
        rw [h, BitVec.toNat_zero] at htwice
        apply BitVec.eq_of_toNat_eq
        rw [BitVec.toNat_zero]
        omega
    | true =>
        rw [shift, hmsb, if_pos rfl] at h
        have hlow := congrArg (BitVec.getLsbD · 0) h
        simp [polynomial] at hlow
  · intro h
    rw [h]
    rfl

theorem shiftByte_xor (r s : Register) :
    shiftByte (r ^^^ s) = shiftByte r ^^^ shiftByte s := by
  simp only [shiftByte, shift_xor]

theorem shiftByte_eq_zero_iff {r : Register} :
    shiftByte r = 0#32 ↔ r = 0#32 := by
  simp only [shiftByte, shift_eq_zero_iff]

theorem toNat_iterate_shift {r : Register} {n : Nat}
    (h : 2 ^ n * r.toNat < 2 ^ 32) :
    (Nat.repeat shift n r).toNat = 2 ^ n * r.toNat := by
  induction n with
  | zero => exact (Nat.one_mul r.toNat).symm
  | succ n ih =>
      rw [Nat.pow_succ', Nat.mul_assoc] at h
      have hfront := ih (by omega)
      rw [Nat.repeat, toNat_shift (by rw [hfront]; exact h), hfront,
        Nat.pow_succ', Nat.mul_assoc]

theorem toNat_shiftByte {r : Register} (h : 256 * r.toNat < 2 ^ 32) :
    (shiftByte r).toNat = 256 * r.toNat :=
  toNat_iterate_shift (n := 8) h

/-!
## Four bytes in the register
-/

def placed (b : UInt8) (place : Nat) : Register :=
  b.toBitVec.setWidth 32 <<< (8 * place)

def packed (a b c d : UInt8) : Register :=
  placed a 3 ^^^ (placed b 2 ^^^ (placed c 1 ^^^ placed d 0))

theorem toNat_placed (b : UInt8) {place : Nat} (h : place < 4) :
    (placed b place).toNat = 2 ^ (8 * place) * b.toNat := by
  have hb := b.toNat_lt
  have hwidth : (b.toBitVec.setWidth 32).toNat = b.toNat := by
    rw [BitVec.toNat_setWidth]
    exact Nat.mod_eq_of_lt (Nat.lt_trans hb (by decide))
  rw [placed, BitVec.toNat_shiftLeft, hwidth, Nat.shiftLeft_eq, Nat.mul_comm]
  apply Nat.mod_eq_of_lt
  calc 2 ^ (8 * place) * b.toNat
      < 2 ^ (8 * place) * 2 ^ 8 :=
        Nat.mul_lt_mul_of_pos_left hb (Nat.two_pow_pos _)
    _ = 2 ^ (8 * place + 8) := (Nat.pow_add 2 (8 * place) 8).symm
    _ ≤ 2 ^ 32 := Nat.pow_le_pow_right (by decide) (by omega)

theorem shiftByte_placed (b : UInt8) {place : Nat} (h : place < 3) :
    shiftByte (placed b place) = placed b (place + 1) := by
  have hnext := toNat_placed b (Nat.succ_lt_succ h)
  have hmoved :
      256 * (placed b place).toNat = (placed b (place + 1)).toNat := by
    rw [hnext, toNat_placed b (Nat.lt_succ_of_lt h), Nat.mul_succ, Nat.pow_add,
      ← Nat.mul_assoc, Nat.mul_comm 256]
  apply BitVec.eq_of_toNat_eq
  rw [toNat_shiftByte, hmoved]
  rw [hmoved]
  exact (placed b (place + 1)).isLt

theorem absorb_eq (r : Register) (b : UInt8) :
    absorb r b = shiftByte (r ^^^ placed b 3) :=
  rfl

/-- Four bytes can be taken into the register at once, before it is shifted. -/
theorem update_four (r : Register) (a b c d : UInt8) :
    update r [a, b, c, d] =
      shiftByte (shiftByte (shiftByte (shiftByte (r ^^^ packed a b c d)))) := by
  have hb : shiftByte (placed b 2) = placed b 3 :=
    shiftByte_placed b (by decide)
  have hc : shiftByte (shiftByte (placed c 1)) = placed c 3 := by
    rw [shiftByte_placed c (by decide), shiftByte_placed c (by decide)]
  have hd : shiftByte (shiftByte (shiftByte (placed d 0))) = placed d 3 := by
    rw [shiftByte_placed d (by decide), shiftByte_placed d (by decide),
      shiftByte_placed d (by decide)]
  show absorb (absorb (absorb (absorb r a) b) c) d = _
  simp only [absorb_eq, packed, shiftByte_xor, hb, hc, hd, BitVec.xor_assoc]

theorem update_four_eq_zero_iff {r : Register} {a b c d : UInt8} :
    update r [a, b, c, d] = 0#32 ↔ r = packed a b c d := by
  rw [update_four]
  simp only [shiftByte_eq_zero_iff, BitVec.xor_eq_zero_iff]

theorem xor_of_lt {i m n : Nat} (h : n < 2 ^ i) :
    2 ^ i * m ^^^ n = 2 ^ i * m + n := by
  apply Nat.eq_of_testBit_eq
  intro j
  rw [Nat.testBit_xor, Nat.testBit_two_pow_mul, Nat.testBit_two_pow_mul_add m h]
  by_cases hj : j < i
  · rw [if_pos hj, decide_eq_false (Nat.not_le.mpr hj), Bool.false_and,
      Bool.false_xor]
  · have hle := Nat.le_of_not_lt hj
    rw [if_neg hj, decide_eq_true hle, Bool.true_and,
      Nat.testBit_lt_two_pow
        (Nat.lt_of_lt_of_le h (Nat.pow_le_pow_right (by decide) hle)),
      Bool.xor_false]

theorem toNat_packed (a b c d : UInt8) :
    (packed a b c d).toNat =
      2 ^ 24 * a.toNat + (2 ^ 16 * b.toNat + (2 ^ 8 * c.toNat + d.toNat)) := by
  have hb := b.toNat_lt
  have hc := c.toNat_lt
  have hd := d.toNat_lt
  rw [packed, BitVec.toNat_xor, BitVec.toNat_xor, BitVec.toNat_xor,
    toNat_placed a (by decide), toNat_placed b (by decide),
    toNat_placed c (by decide), toNat_placed d (by decide)]
  show 2 ^ 24 * a.toNat ^^^
    (2 ^ 16 * b.toNat ^^^ (2 ^ 8 * c.toNat ^^^ 1 * d.toNat)) = _
  have hlow : 2 ^ 8 * c.toNat ^^^ d.toNat = 2 ^ 8 * c.toNat + d.toNat :=
    xor_of_lt hd
  have hmiddle : 2 ^ 16 * b.toNat ^^^ (2 ^ 8 * c.toNat + d.toNat) =
      2 ^ 16 * b.toNat + (2 ^ 8 * c.toNat + d.toNat) := by
    apply xor_of_lt
    omega
  rw [Nat.one_mul, hlow, hmiddle]
  apply xor_of_lt
  omega

theorem packed_eq_iff {r : Register} {a b c d : UInt8} :
    r = packed a b c d ↔ [a, b, c, d] = trailer r := by
  have ha := a.toNat_lt
  have hb := b.toNat_lt
  have hc := c.toNat_lt
  have hd := d.toNat_lt
  have hr := r.isLt
  rw [← BitVec.toNat_inj, toNat_packed]
  simp only [trailer, List.cons.injEq, ← UInt8.toNat_inj, lowByte,
    UInt8.toNat_ofNat', and_true]
  omega

/-!
## Sections and their trailers
-/

theorem isIntact_append_iff {message last : Bytes} (h : last.length = 4) :
    isIntact (message ++ last) = true ↔ last = trailer (crc message) := by
  rcases List.length_eq_four.mp h with ⟨a, b, c, d, rfl⟩
  have hlong : 4 ≤ (message ++ [a, b, c, d]).length := by
    rw [List.length_append]
    exact Nat.le_add_left 4 _
  rw [isIntact, Bool.and_eq_true, decide_eq_true_iff, beq_iff_eq, crc,
    update_append]
  rw [and_iff_right hlong]
  exact update_four_eq_zero_iff.trans packed_eq_iff

theorem isIntact_append_trailer (message : Bytes) :
    isIntact (message ++ trailer (crc message)) = true :=
  (isIntact_append_iff (length_trailer (crc message))).mpr rfl

theorem isIntact_iff {wholeSection : Bytes} :
    isIntact wholeSection = true ↔
      4 ≤ wholeSection.length ∧ crc wholeSection = 0#32 := by
  rw [isIntact, Bool.and_eq_true, decide_eq_true_iff, beq_iff_eq]
  exact Iff.rfl

/-- The last four bytes of an intact section are determined by the bytes ahead
of them: they are the checksum of these, the high byte first, and with it the
checksum of the whole is zero.  Fewer than four bytes are never intact. -/
theorem checksum_determines_trailer (message : Bytes) :
    (forall last : Bytes, last.length = 4 ->
        (isIntact (message ++ last) = true ↔ last = trailer (crc message))) ∧
      crc (message ++ trailer (crc message)) = 0#32 ∧
      forall short : Bytes, short.length < 4 -> isIntact short = false := by
  refine ⟨?_, ?_, ?_⟩
  · intro last hlast
    exact isIntact_append_iff hlast
  · exact (isIntact_iff.mp (isIntact_append_trailer message)).right
  · intro short hshort
    apply Bool.eq_false_iff.mpr
    intro hintact
    exact absurd (isIntact_iff.mp hintact).left (Nat.not_le.mpr hshort)

def digits : Bytes :=
  [0x31, 0x32, 0x33, 0x34, 0x35, 0x36, 0x37, 0x38, 0x39]

theorem checksum_determines_trailer_of_digits :
    ([0x03, 0x76, 0xE6, 0xE7] : Bytes).length = 4 ∧
      isIntact (digits ++ [0x03, 0x76, 0xE6, 0xE7]) = true ∧
      isIntact (digits ++ [0xE7, 0xE6, 0x76, 0x03]) = false ∧
      (digits.take 3).length < 4 ∧ isIntact (digits.take 3) = false := by
  rcases checksum_determines_trailer digits with ⟨hlast, _, hshort⟩
  have hcrc : trailer (crc digits) = [0x03, 0x76, 0xE6, 0xE7] := by
    decide +kernel
  refine ⟨rfl, (hlast _ rfl).mpr hcrc.symm, ?_, by decide, hshort _ (by decide)⟩
  apply Bool.eq_false_iff.mpr
  intro hintact
  have hreversed := (hlast _ rfl).mp hintact
  rw [hcrc] at hreversed
  exact absurd hreversed (by decide)

end Crc
end TransportStream
