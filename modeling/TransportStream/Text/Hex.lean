import TransportStream.Bits

/-!
# Hexadecimal and binary text

Numbers are written in lower case digits, padded with zeros on the left to a
least width.
-/

namespace TransportStream
namespace Text

def padded (base width n : Nat) : String :=
  let digits := Nat.toDigits base n
  String.ofList (List.replicate (width - digits.length) '0' ++ digits)

def hex2 (n : Nat) : String :=
  "0x" ++ padded 16 2 n

def hex4 (n : Nat) : String :=
  "0x" ++ padded 16 4 n

def binary4 (n : Nat) : String :=
  "0b" ++ padded 2 4 n

def hexOfBytes (bytes : Bytes) : String :=
  String.join (bytes.map fun b => padded 16 2 b.toNat)

end Text
end TransportStream
