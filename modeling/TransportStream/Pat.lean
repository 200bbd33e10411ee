import TransportStream.Table

/-!
# Program association tables

The program association table names the packet identifier of the program map of
every program; its entry for program zero names the network's identifier
instead.
-/

namespace TransportStream

def patPid : Nat := 0x0000

/-- The program map of one-segment broadcasts for mobile reception, which
repeats the main program and is never followed. -/
def oneSegmentPid : Nat := 0x1FC8

namespace Pat

structure Entry where
  programHigh : UInt8
  programLow : UInt8
  pidHigh : UInt8
  pidLow : UInt8
  deriving DecidableEq, Repr

namespace Entry

def program (e : Entry) : Nat :=
  word e.programHigh e.programLow

def pid (e : Entry) : Nat :=
  pidField e.pidHigh e.pidLow

def bytes (e : Entry) : Bytes :=
  [e.programHigh, e.programLow, e.pidHigh, e.pidLow]

end Entry

/-- The entries at the front of a byte string; up to three bytes behind them are
ignored. -/
def entries : Bytes -> List Entry
  | a :: b :: c :: d :: rest => ⟨a, b, c, d⟩ :: entries rest
  | _ => []

def entryBytes (bytes : Bytes) : Bytes :=
  (bytes.drop sectionHeaderSize).take
    (bytes.length - sectionHeaderSize - trailerSize)

structure Association where
  program : Nat
  pid : Nat
  deriving DecidableEq, Repr

/-- Program zero stands for the network. -/
def Association.isNetwork (a : Association) : Bool :=
  a.program == 0

def Entry.association (e : Entry) : Association :=
  ⟨e.program, e.pid⟩

end Pat

structure Pat where
  header : SectionHeader
  associations : List Pat.Association
  deriving DecidableEq, Repr

namespace Pat

def tableId : UInt8 := 0x00

def programs (t : Pat) : List Association :=
  t.associations.filter (!·.isNetwork)

def decode (bytes : Bytes) : Except Error Pat :=
  if bytes.length < sectionHeaderSize + trailerSize then
    .error (.malformed .shortPat)
  else if bytes.head? ≠ some tableId then .error (.malformed .notPat)
  else do
    let header ← SectionHeader.parse bytes
    pure ⟨header, (entries (entryBytes bytes)).map Entry.association⟩

instance : Table Pat where
  name := "PAT"
  decode := decode
  remark? _ := none

end Pat
end TransportStream
