import TransportStream.Bits

/-!
# Reading bit by bit

A bit reader consumes the bits of a byte string from the front and fails when it
is asked for more bits than are left.

It follows the big-endian reader that the bitstream-io package documents: the
bits of a byte come most significant first, the first bit of a number is its
most significant one, a field may begin anywhere and go over the end of a byte,
and bits that are skipped have to be there like bits that are read.
-/

namespace TransportStream

def bitsOfByte (b : UInt8) : List Bool :=
  [flag b 7, flag b 6, flag b 5, flag b 4, flag b 3, flag b 2, flag b 1,
    flag b 0]

def bitsOf (bytes : Bytes) : List Bool :=
  bytes.flatMap bitsOfByte

abbrev BitReader := StateT (List Bool) Option

namespace BitReader

def bit : BitReader Bool := fun bits =>
  match bits with
  | [] => none
  | b :: rest => some (b, rest)

def number : (width : Nat) -> BitReader Nat
  | 0 => pure 0
  | width + 1 => do
      let b ← bit
      let low ← number width
      pure (b.toNat * 2 ^ width + low)

def skip (width : Nat) : BitReader Unit := do
  let _ ← number width

end BitReader

theorem length_bitsOf (bytes : Bytes) :
    (bitsOf bytes).length = 8 * bytes.length := by
  induction bytes with
  | nil => rfl
  | cons b rest ih =>
      simp only [bitsOf, List.flatMap_cons, List.length_append,
        List.length_cons] at ih ⊢
      simp only [ih, bitsOfByte, List.length_cons, List.length_nil]
      omega

end TransportStream
