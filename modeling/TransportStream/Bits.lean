/-!
# Bytes and bit fields

Every format of this library is a list of bytes.  Inside a byte the bits are
numbered from seven, the most significant, down to zero; inside a word of two
bytes the high byte comes first.  The fields of a format are read here as
natural numbers.
-/

namespace TransportStream

-- Powers of natural numbers are those of the core library, whatever else is
-- imported.
attribute [instance (high), default_instance (high)] instPowNat

abbrev Bytes := List UInt8

def field (b : UInt8) (low width : Nat) : Nat :=
  b.toNat / 2 ^ low % 2 ^ width

def flag (b : UInt8) (i : Nat) : Bool :=
  field b i 1 == 1

def lowByte (n : Nat) : UInt8 :=
  UInt8.ofNat n

def word (hi lo : UInt8) : Nat :=
  hi.toNat * 256 + lo.toNat

/-- A packet identifier is the low thirteen bits of a word; the three above are
reserved. -/
def pidField (hi lo : UInt8) : Nat :=
  word hi lo % 0x2000

/-- A length field is the low twelve bits of a word; the four above belong to
other fields. -/
def lengthField (hi lo : UInt8) : Nat :=
  word hi lo % 0x1000

theorem field_lt (b : UInt8) (low width : Nat) :
    field b low width < 2 ^ width :=
  Nat.mod_lt _ (Nat.two_pow_pos width)

theorem word_lt (hi lo : UInt8) : word hi lo < 0x10000 := by
  have h := hi.toNat_lt
  have l := lo.toNat_lt
  unfold word
  omega

theorem pidField_lt (hi lo : UInt8) : pidField hi lo < 0x2000 :=
  Nat.mod_lt _ (by decide)

theorem lengthField_lt (hi lo : UInt8) : lengthField hi lo < 0x1000 :=
  Nat.mod_lt _ (by decide)

end TransportStream
