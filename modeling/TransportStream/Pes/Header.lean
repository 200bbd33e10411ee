import TransportStream.Bits.Reader
import TransportStream.Error
import TransportStream.Log

/-!
# Headers of elementary stream packets

An elementary stream packet opens with a start code and a header whose last
fixed byte announces how many optional bytes follow.  A presentation timestamp
is a number of 33 bits in ticks of a 90 kHz clock, cut into three parts with
marker bits between them.  Marker bits are not enforced.
-/

namespace TransportStream

abbrev Timestamp := UInt64

namespace Pes

def fixedHeaderSize : Nat := 9

def timestampSize : Nat := 5

structure TimestampField where
  lead : Nat
  high : Nat
  firstMarker : Bool
  middle : Nat
  secondMarker : Bool
  low : Nat
  thirdMarker : Bool
  deriving DecidableEq, Repr

namespace TimestampField

def ticks (t : TimestampField) : Timestamp :=
  UInt64.ofNat (t.high * 2 ^ 30 + t.middle * 2 ^ 15 + t.low)

/-- Whether a marker bit or the second lowest lead bit is clear. -/
def isOdd (t : TimestampField) : Bool :=
  t.lead / 2 % 2 == 0 || !(t.firstMarker && t.secondMarker && t.thirdMarker)

def read : BitReader TimestampField := do
  let lead ← BitReader.number 4
  let high ← BitReader.number 3
  let firstMarker ← BitReader.bit
  let middle ← BitReader.number 15
  let secondMarker ← BitReader.bit
  let low ← BitReader.number 15
  let thirdMarker ← BitReader.bit
  pure ⟨lead, high, firstMarker, middle, secondMarker, low, thirdMarker⟩

end TimestampField

structure Header where
  streamId : Nat
  packetLength : Nat
  aligned : Bool
  timestampFlags : Nat
  optionalLength : Nat
  pts : Option Timestamp
  deriving DecidableEq, Repr

namespace Header

def readBits : BitReader (Header × Option TimestampField) := do
  BitReader.skip 24
  let streamId ← BitReader.number 8
  let packetLength ← BitReader.number 16
  BitReader.skip 5
  let aligned ← BitReader.bit
  BitReader.skip 2
  let timestampFlags ← BitReader.number 2
  BitReader.skip 6
  let optionalLength ← BitReader.number 8
  if 2 ≤ timestampFlags ∧ timestampSize ≤ optionalLength then do
    let timestamp ← TimestampField.read
    pure
      (⟨streamId, packetLength, aligned, timestampFlags, optionalLength,
        some timestamp.ticks⟩, some timestamp)
  else
    pure
      (⟨streamId, packetLength, aligned, timestampFlags, optionalLength, none⟩,
        none)

def size? : Bytes -> Option Nat
  | _ :: _ :: _ :: _ :: _ :: _ :: _ :: _ :: length :: _ =>
      some (fixedHeaderSize + length.toNat)
  | _ => none

def hasStartCode (bytes : Bytes) : Bool :=
  bytes.take 3 == [0x00, 0x00, 0x01]

def readFields (bytes : Bytes) :
    Except Error (Header × Option TimestampField) :=
  match size? bytes with
  | none => .error (.malformed .shortPesHeader)
  | some size =>
      if bytes.length < size then .error (.malformed .shortPesHeader)
      else if !hasStartCode bytes then .error (.malformed .noStartCode)
      else
        match readBits.run (bitsOf bytes) with
        | none => .error (.malformed .shortPesHeader)
        | some (fields, _) => .ok fields

def parse (bytes : Bytes) : Except Error Header :=
  (readFields bytes).map Prod.fst

def oddTimestamp (fields : Header × Option TimestampField) : Option Record :=
  match fields.2 with
  | none => none
  | some timestamp =>
      if timestamp.isOdd then
        some (.debug .pes
          s!"PES timestamp with unexpected marker bits (prefix {Text.binary4 timestamp.lead})")
      else none

def read (bytes : Bytes) : Logged (Except Error Header) := do
  Logged.note? ((readFields bytes).toOption.bind oddTimestamp)
  pure (parse bytes)

end Header
end Pes
end TransportStream
