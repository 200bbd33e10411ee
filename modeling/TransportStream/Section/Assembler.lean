import TransportStream.Log
import TransportStream.Packet
import TransportStream.Section

/-!
# Assembling sections from packets

The payloads of one packet identifier carry sections that may be spread over
several packets.  A start packet says with its first payload byte, the pointer,
how many bytes still belong to what came before; this assembler begins afresh
behind them.  Packets with a transport error and packets sent twice are passed
over, and a missing packet gives up the section it belonged to.
-/

namespace TransportStream

inductive SectionAssembler where
  | idle
  | collecting (last : Nat) (pending : Bytes)
  deriving DecidableEq, Repr

namespace SectionAssembler

def isStarted : SectionAssembler -> Bool
  | .idle => false
  | .collecting _ _ => true

/-- The assembler that waits with what is left behind the complete sections. -/
def waiting (last : Nat) : Option Bytes -> SectionAssembler
  | none => .idle
  | some pending => .collecting last pending

def handOut (last : Nat) (bytes : Bytes) : SectionAssembler × List Bytes :=
  (waiting last (cutSections bytes).rest, (cutSections bytes).sections)

def begin (a : SectionAssembler) (p : Packet) :
    Logged (SectionAssembler × List Bytes) :=
  match p.payload with
  | [] => pure (a, [])
  | pointer :: rest =>
      if rest.length < pointer.toNat then do
        Logged.note (.debug .sections
          s!"pid {Text.hex4 p.pid}: pointer field {pointer.toNat} past payload")
        pure (.idle, [])
      else
        pure (handOut p.counter (rest.drop pointer.toNat))

def resume (last : Nat) (pending : Bytes) (p : Packet) :
    Logged (SectionAssembler × List Bytes) :=
  match p.continuityAfter last with
  | .duplicate => pure (.collecting last pending, [])
  | .next => pure (handOut p.counter (pending ++ p.payload))
  | .gap => do
      Logged.note (.debug .sections
        s!"pid {Text.hex4 p.pid}: continuity {last} -> {p.counter}, dropping partial section")
      pure (.idle, [])

def submit (a : SectionAssembler) (p : Packet) :
    Logged (SectionAssembler × List Bytes) :=
  if p.transportError then do
    Logged.note (.debug .sections
      s!"pid {Text.hex4 p.pid}: dropping packet with transport error")
    pure (a, [])
  else if p.unitStart then begin a p
  else
    match a with
    | .idle => pure (.idle, [])
    | .collecting last pending => resume last pending p

end SectionAssembler
end TransportStream
