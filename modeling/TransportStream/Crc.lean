import TransportStream.Bits

/-!
# Cyclic redundancy check of sections

A section ends in four bytes that make its checksum zero.  The checksum is the
remainder of a division by the polynomial `0x04C11DB7`, most significant bit
first, in a register of 32 bits that starts with every bit set; nothing is
reflected and nothing is added at the end.

These are the parameters that the catalogue of the crc package documents under
`CRC_32_MPEG_2`.  The package computes with a table of whole bytes, which is the
division below taken eight bits at a time.
-/

namespace TransportStream
namespace Crc

abbrev Register := BitVec 32

/-- The divisor, without its leading term. -/
def polynomial : Register :=
  0x04C11DB7#32

def initial : Register :=
  0xFFFFFFFF#32

def shift (r : Register) : Register :=
  if r.msb then (r <<< 1) ^^^ polynomial else r <<< 1

def shiftByte (r : Register) : Register :=
  shift (shift (shift (shift (shift (shift (shift (shift r)))))))

def absorb (r : Register) (b : UInt8) : Register :=
  shiftByte (r ^^^ (b.toBitVec.setWidth 32 <<< 24))

def update (r : Register) (message : Bytes) : Register :=
  message.foldl absorb r

end Crc

def crc (message : Bytes) : Crc.Register :=
  Crc.update Crc.initial message

namespace Crc

def trailer (r : Register) : Bytes :=
  [lowByte (r.toNat / 0x1000000), lowByte (r.toNat / 0x10000),
    lowByte (r.toNat / 0x100), lowByte r.toNat]

/-- A section is intact when its checksum, trailer included, is zero. -/
def isIntact (wholeSection : Bytes) : Bool :=
  4 ≤ wholeSection.length && crc wholeSection == 0

theorem update_cons (r : Register) (b : UInt8) (message : Bytes) :
    update r (b :: message) = update (absorb r b) message := rfl

theorem update_append (r : Register) (a b : Bytes) :
    update r (a ++ b) = update (update r a) b := by
  simp [update, List.foldl_append]

theorem length_trailer (r : Register) : (trailer r).length = 4 := rfl

end Crc
end TransportStream
