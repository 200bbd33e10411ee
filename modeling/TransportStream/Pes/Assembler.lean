import TransportStream.Packet
import TransportStream.Pes.Header

/-!
# Assembling elementary stream packets

A start packet begins a unit.  Payload is collected until the header of the unit
is complete; the header is handed out, and from then on payload is handed out as
it comes.  Packets with a transport error and packets sent twice are passed
over; a missing packet gives up the unit.
-/

namespace TransportStream
namespace Pes

inductive Event where
  | header (header : Header)
  | data (bytes : Bytes)
  deriving DecidableEq, Repr

inductive Assembler where
  | idle
  | collecting (last : Nat) (pending : Bytes)
  | streaming (last : Nat)
  deriving DecidableEq, Repr

def dataEvents (bytes : Bytes) : List Event :=
  if bytes.isEmpty then [] else [.data bytes]

namespace Assembler

def headerParsed : Assembler -> Bool
  | .streaming _ => true
  | _ => false

def tryHeader (pid last : Nat) (bytes : Bytes) :
    Logged (Assembler × List Event) :=
  match Header.size? bytes with
  | none => pure (.collecting last bytes, [])
  | some size =>
      if !Header.hasStartCode bytes then do
        Logged.note (.debug .pes
          s!"pid {Text.hex4 pid}: PES without start code prefix, waiting for next unit")
        pure (.idle, [])
      else if bytes.length < size then
        pure (.collecting last bytes, [])
      else do
        match ← Header.read (bytes.take size) with
        | .ok header =>
            pure
              (.streaming last, .header header :: dataEvents (bytes.drop size))
        | .error e =>
            Logged.note (.debug .pes s!"pid {Text.hex4 pid}: {e.message}")
            pure (.idle, [])

def resume (a : Assembler) (last : Nat) (p : Packet)
    (accept : Logged (Assembler × List Event)) :
    Logged (Assembler × List Event) :=
  match p.continuityAfter last with
  | .duplicate => pure (a, [])
  | .next => accept
  | .gap => do
      Logged.note (.debug .pes
        s!"pid {Text.hex4 p.pid}: continuity {last} -> {p.counter}, dropping PES unit")
      pure (.idle, [])

def submit (a : Assembler) (p : Packet) : Logged (Assembler × List Event) :=
  if p.transportError then do
    Logged.note (.debug .pes
      s!"pid {Text.hex4 p.pid}: dropping packet with transport error")
    pure (a, [])
  else if p.unitStart then tryHeader p.pid p.counter p.payload
  else
    match a with
    | .idle => pure (.idle, [])
    | .collecting last pending =>
        resume a last p (tryHeader p.pid p.counter (pending ++ p.payload))
    | .streaming last =>
        resume a last p (pure (.streaming p.counter, dataEvents p.payload))

end Assembler
end Pes
end TransportStream
