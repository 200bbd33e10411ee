import TransportStream.Descriptor
import TransportStream.StreamKind
import TransportStream.Table

/-!
# Program map tables

The program map table of a program names the packet identifier of its clock
reference and lists its elementary streams.  Both the program and its streams
carry descriptors.
-/

namespace TransportStream

structure ElementaryStream where
  code : UInt8
  pid : Nat
  info : DescriptorLoop
  deriving DecidableEq, Repr

namespace ElementaryStream

def kind (s : ElementaryStream) : StreamKind :=
  StreamKind.ofCode s.code

/-- The complete entries at the front of a byte string, and the bytes behind
them. -/
def scan : Bytes -> List ElementaryStream × Bytes
  | code :: pidHigh :: pidLow :: lengthHigh :: lengthLow :: rest =>
      if rest.length < lengthField lengthHigh lengthLow then
        ([], code :: pidHigh :: pidLow :: lengthHigh :: lengthLow :: rest)
      else
        let size := lengthField lengthHigh lengthLow
        let later := scan (rest.drop size)
        (⟨code, pidField pidHigh pidLow, ⟨rest.take size⟩⟩ :: later.1, later.2)
  | short => ([], short)
termination_by bytes => bytes.length
decreasing_by
  rw [List.length_drop]
  simp only [List.length_cons]
  omega

end ElementaryStream

structure Pmt where
  header : SectionHeader
  clockPid : Nat
  info : DescriptorLoop
  streams : List ElementaryStream
  deriving DecidableEq, Repr

namespace Pmt

def tableId : UInt8 := 0x02

def headerSize : Nat := 12

def program (t : Pmt) : Nat :=
  t.header.extension

def find? (t : Pmt) (kind : StreamKind) : Option ElementaryStream :=
  t.streams.find? (·.kind = kind)

def clockField : Bytes -> Nat
  | _ :: _ :: _ :: _ :: _ :: _ :: _ :: _ :: hi :: lo :: _ => pidField hi lo
  | _ => 0

def infoLength : Bytes -> Nat
  | _ :: _ :: _ :: _ :: _ :: _ :: _ :: _ :: _ :: _ :: hi :: lo :: _ =>
      lengthField hi lo
  | _ => 0

def content (bytes : Bytes) : Bytes :=
  (bytes.drop headerSize).take (bytes.length - headerSize - trailerSize)

def streamsAndRest (bytes : Bytes) : List ElementaryStream × Bytes :=
  ElementaryStream.scan ((content bytes).drop (infoLength bytes))

def decode (bytes : Bytes) : Except Error Pmt :=
  if bytes.length < headerSize + trailerSize then .error (.malformed .shortPmt)
  else if bytes.head? ≠ some tableId then .error (.malformed .notPmt)
  else do
    let header ← SectionHeader.parse bytes
    if (content bytes).length < infoLength bytes then
      .error (.malformed .longProgramInfo)
    else
      pure ⟨header, clockField bytes, ⟨(content bytes).take (infoLength bytes)⟩,
        (streamsAndRest bytes).1⟩

/-- Bytes behind the streams are either too few for an entry or the front of one
that is cut short. -/
def restRemark : Bytes -> Option Record
  | [] => none
  | _ :: _ :: _ :: hi :: lo :: _ =>
      some (.debug .pmt
        s!"PMT: es_info_length {lengthField hi lo} overruns section")
  | short => some (.debug .pmt s!"PMT: {short.length} stray bytes before CRC")

instance : Table Pmt where
  name := "PMT"
  decode := decode
  remark? bytes := restRemark (streamsAndRest bytes).2

end Pmt
end TransportStream
