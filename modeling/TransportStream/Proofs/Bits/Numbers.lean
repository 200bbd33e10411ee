import TransportStream.Bits.Reader

/-!
# Numbers read from bits

A bit reader that has enough bits before it takes them from the front, and finds
the number that they write.  Within a byte that number is a field of the byte,
and over two bytes it is a word.
-/

namespace TransportStream

def bitsValue : List Bool -> Nat
  | [] => 0
  | b :: rest => b.toNat * 2 ^ rest.length + bitsValue rest

theorem bitsValue_append (bits more : List Bool) :
    bitsValue (bits ++ more) =
      bitsValue bits * 2 ^ more.length + bitsValue more := by
  induction bits with
  | nil => simp [bitsValue]
  | cons b bits ih =>
      rw [List.cons_append, bitsValue, ih, bitsValue, List.length_append,
        Nat.pow_add, Nat.add_mul, Nat.mul_assoc, Nat.add_assoc]

/-!
## Fields of bytes
-/

def fieldBits (b : UInt8) (low : Nat) : Nat -> List Bool
  | 0 => []
  | width + 1 => flag b (low + width) :: fieldBits b low width

theorem length_fieldBits (b : UInt8) (low width : Nat) :
    (fieldBits b low width).length = width := by
  induction width with
  | zero => rfl
  | succ width ih => rw [fieldBits, List.length_cons, ih]

theorem flag_toNat (b : UInt8) (i : Nat) : (flag b i).toNat = field b i 1 := by
  have hlt := field_lt b i 1
  unfold flag
  cases hcase : field b i 1 == 1 with
  | true => exact (eq_of_beq hcase).symm
  | false =>
      have hne : field b i 1 ≠ 1 := ne_of_beq_false hcase
      show 0 = field b i 1
      omega

/-- Two fields of which one lies right above the other are one field. -/
theorem field_add (b : UInt8) (low width above : Nat) :
    field b low (width + above) =
      field b (low + width) above * 2 ^ width + field b low width := by
  unfold field
  rw [Nat.pow_add, Nat.mod_mul, Nat.div_div_eq_div_mul, ← Nat.pow_add,
    Nat.mul_comm, Nat.add_comm]

theorem field_succ (b : UInt8) (low width : Nat) :
    field b low (width + 1) =
      field b (low + width) 1 * 2 ^ width + field b low width :=
  field_add b low width 1

theorem bitsValue_fieldBits (b : UInt8) (low width : Nat) :
    bitsValue (fieldBits b low width) = field b low width := by
  induction width with
  | zero => exact (Nat.mod_one _).symm
  | succ width ih =>
      rw [fieldBits, bitsValue, length_fieldBits, ih, flag_toNat, ← field_succ]

theorem field_byte (b : UInt8) : field b 0 8 = b.toNat := by
  have hlt := b.toNat_lt
  unfold field
  omega

theorem bitsOf_cons (b : UInt8) (bytes : Bytes) :
    bitsOf (b :: bytes) = fieldBits b 0 8 ++ bitsOf bytes := rfl

/-!
## Reading
-/

namespace BitReader

theorem bit_run (b : Bool) (rest : List Bool) :
    bit.run (b :: rest) = some (b, rest) :=
  rfl

theorem number_run (bits rest : List Bool) :
    (number bits.length).run (bits ++ rest) = some (bitsValue bits, rest) := by
  induction bits with
  | nil => rfl
  | cons b bits ih =>
      show ((number bits.length).run (bits ++ rest)).bind
        (fun low => some (b.toNat * 2 ^ bits.length + low.1, low.2)) = _
      rw [ih]
      rfl

theorem number_run_field (b : UInt8) (low width : Nat) (rest : List Bool) :
    (number width).run (fieldBits b low width ++ rest) =
      some (field b low width, rest) := by
  have hread := number_run (fieldBits b low width) rest
  rw [length_fieldBits, bitsValue_fieldBits] at hread
  exact hread

theorem number_run_byte (b : UInt8) (bytes : Bytes) :
    (number 8).run (bitsOf (b :: bytes)) = some (b.toNat, bitsOf bytes) := by
  rw [bitsOf_cons, number_run_field, field_byte]

theorem number_run_fields (hi lo : UInt8) (i m j n : Nat) (rest : List Bool) :
    (number (m + n)).run (fieldBits hi i m ++ (fieldBits lo j n ++ rest)) =
      some (field hi i m * 2 ^ n + field lo j n, rest) := by
  have hread := number_run (fieldBits hi i m ++ fieldBits lo j n) rest
  rw [bitsValue_append, List.length_append, length_fieldBits, length_fieldBits,
    bitsValue_fieldBits, bitsValue_fieldBits, List.append_assoc] at hread
  exact hread

theorem number_run_word (hi lo : UInt8) (bytes : Bytes) :
    (number 16).run (bitsOf (hi :: lo :: bytes)) =
      some (word hi lo, bitsOf bytes) := by
  have hread := number_run_fields hi lo 0 8 0 8 (bitsOf bytes)
  rw [field_byte, field_byte] at hread
  exact hread

theorem skip_run (bits rest : List Bool) :
    (skip bits.length).run (bits ++ rest) = some ((), rest) := by
  show ((number bits.length).run (bits ++ rest)).bind
    (fun low => some ((), low.2)) = _
  rw [number_run]
  rfl

end BitReader
end TransportStream
