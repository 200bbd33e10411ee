import TransportStream.Crc
import TransportStream.Pat
import TransportStream.PidSet

/-!
# Reducing association tables in place

A run of packets that carries one association section can be reduced so that it
announces only some of its programs.  The shorter section is laid back over the
same payloads with its length and checksum mended, and everything behind it
becomes stuffing.
-/

namespace TransportStream
namespace Pat

/-- Where the section lies in the joined payloads of a run. -/
inductive Span where
  | complete (start stop : Nat)
  | unfinished
  | invalid
  deriving DecidableEq, Repr

namespace Span

def name : Span -> String
  | .complete _ _ => "Complete"
  | .unfinished => "Partial"
  | .invalid => "Invalid"

/-- Locate the section in the joined payloads, the first of which has the given
length.  It starts behind the pointer, inside the first payload, and is long
enough for a header and a checksum. -/
def locate (data : Bytes) (firstLength : Nat) : Span :=
  match data with
  | [] => .invalid
  | pointer :: _ =>
      let start := 1 + pointer.toNat
      if firstLength ≤ start then .invalid
      else
        match announcedSize? (data.drop start) with
        | none => .unfinished
        | some size =>
            if size < sectionHeaderSize + trailerSize then .invalid
            else if data.length < start + size then .unfinished
            else .complete start (start + size)

end Span

def Entry.isKept (pmtPids : PidSet) (e : Entry) : Bool :=
  e.program == 0 || pmtPids.contains e.pid

/-- A section up to its checksum, with other entries and the length to match. -/
def withEntries (old : Bytes) (kept : List Entry) : Bytes :=
  let length := sectionHeaderSize - 3 + 4 * kept.length + trailerSize
  match old with
  | tableId :: lengthHigh :: _ :: rest =>
      tableId :: lowByte (field lengthHigh 4 4 * 16 + length / 256) ::
        lowByte length :: rest.take (sectionHeaderSize - 3) ++
          kept.flatMap Entry.bytes
  | _ => []

def withTrailer (bytes : Bytes) : Bytes :=
  bytes ++ Crc.trailer (crc bytes)

def reduceSection (pmtPids : PidSet) (old : Bytes) : Bytes :=
  withTrailer (withEntries old
    ((entries (entryBytes old)).filter (Entry.isKept pmtPids)))

def replaceSection (data : Bytes) (start : Nat) (replacement : Bytes) : Bytes :=
  data.take start ++ replacement ++
    List.replicate (data.length - start - replacement.length) stuffingByte

def joined (run : List Packet) : Bytes :=
  run.flatMap Packet.payload

/-- Lay bytes over the payloads of a run, one after the other. -/
def layOver : List Packet -> Bytes -> List Packet
  | [], _ => []
  | p :: run, data =>
      p.writePayload (data.take p.payload.length) ::
        layOver run (data.drop p.payload.length)

def dropRemark (e : Entry) : Record :=
  .debug .split s!"PAT: dropping program {e.program} (pid {Text.hex4 e.pid})"

def spanOf (run : List Packet) : Span :=
  match run with
  | [] => .invalid
  | first :: _ => Span.locate (joined run) first.payload.length

def reduceSpan (pmtPids : PidSet) (run : List Packet) (start stop : Nat) :
    Logged (List Packet) :=
  let data := joined run
  let old := (data.drop start).take (stop - start)
  let dropped := (entries (entryBytes old)).filter (!·.isKept pmtPids)
  ⟨layOver run (replaceSection data start (reduceSection pmtPids old)),
    (dropped.map dropRemark).toArray⟩

/-- Reduce a run, unless it does not start with a start packet or does not hold
a whole section. -/
def reduce? (pmtPids : PidSet) (run : List Packet) :
    Logged (Option (List Packet)) :=
  match run with
  | [] => pure none
  | first :: _ =>
      if !first.unitStart then do
        Logged.note (.warn .split
          "PAT packet without payload_unit_start, passing through")
        pure none
      else
        match spanOf run with
        | .complete start stop => some <$> reduceSpan pmtPids run start stop
        | span => do
            Logged.note (.warn .split
              s!"PAT section incomplete or malformed ({span.name}), passing through")
            pure none

end Pat
end TransportStream
