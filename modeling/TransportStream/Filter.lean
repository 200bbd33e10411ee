import TransportStream.Discovery
import TransportStream.Pat.Reduce
import TransportStream.Sink

/-!
# Filtering packets

The filter lets through the packets of chosen identifiers and reduces every
association table so that it announces the chosen programs only.  Packets of an
association section that spans several packets are held back until the section
is complete; a run that breaks is let through unchanged.
-/

namespace TransportStream
namespace Filter

inductive Action where
  | note (record : Record)
  | write (packet : Packet)
  deriving DecidableEq

structure State where
  held : List Packet
  packetsRead : Nat
  patsReduced : Nat
  deriving DecidableEq

namespace State

def initial : State :=
  ⟨[], 0, 0⟩

end State

/-- A held run goes on with the packet that follows its last one without
error. -/
def accepts (held : List Packet) (p : Packet) : Bool :=
  match held.getLast? with
  | none => false
  | some last =>
      !p.unitStart && !p.transportError &&
        p.continuityAfter last.counter == .next

/-- A start packet without error whose section needs more packets opens a
run. -/
def opensRun (p : Packet) : Bool :=
  p.unitStart && !p.transportError && Pat.spanOf [p] == .unfinished

def brokenRemark (held : List Packet) : Record :=
  .warn .split
    s!"PAT section over {held.length} packets never completed, passing through"

def release : List Packet -> List Action
  | [] => []
  | held => .note (brokenRemark held) :: held.map .write

def emitReduced (pmtPids : PidSet) (run : List Packet) : Nat × List Action :=
  let ⟨reduced?, log⟩ := Pat.reduce? pmtPids run
  let notes := log.toList.map .note
  match reduced? with
  | some reduced => (1, notes ++ reduced.map .write)
  | none => (0, notes ++ run.map .write)

def startAfresh (pmtPids : PidSet) (p : Packet) :
    List Packet × Nat × List Action :=
  if opensRun p then ([p], 0, [])
  else ([], emitReduced pmtPids [p])

/-- What becomes of a run that has just been lengthened. -/
def settle (pmtPids : PidSet) (run : List Packet) :
    List Packet × Nat × List Action :=
  match Pat.spanOf run with
  | .unfinished => (run, 0, [])
  | .complete _ _ => ([], emitReduced pmtPids run)
  | .invalid => ([], 0, release run)

def stepPat (pmtPids : PidSet) (held : List Packet) (p : Packet) :
    List Packet × Nat × List Action :=
  if accepts held p then settle pmtPids (held ++ [p])
  else
    let (held', reduced, actions) := startAfresh pmtPids p
    (held', reduced, release held ++ actions)

def step (d : Discovery) (s : State) (p : Packet) : State × List Action :=
  if p.pid = patPid then
    let (held, reduced, actions) := stepPat d.pmtPids s.held p
    (⟨held, s.packetsRead + 1, s.patsReduced + reduced⟩, actions)
  else
    (⟨s.held, s.packetsRead + 1, s.patsReduced⟩,
      if d.keep.contains p.pid then [.write p] else [])

def finish (s : State) : List Action :=
  release s.held

/-!
# Writing to a sink
-/

structure Output (κ : Type) where
  sink : κ
  packetsWritten : Nat

variable {ρ κ : Type} [FiniteSource ρ] [Sink κ]

def perform (out : Output κ) :
    List Action -> Logged (Option IoFailure × Output κ)
  | [] => pure (none, out)
  | .note record :: rest => do
      Logged.note record
      perform out rest
  | .write p :: rest =>
      match Sink.writeAll out.sink p.bytes with
      | (none, sink) => perform ⟨sink, out.packetsWritten + 1⟩ rest
      | (some failure, sink) => pure (some failure, ⟨sink, out.packetsWritten⟩)

def stepInto (d : Discovery) (s : State × Output κ) (p : Packet) :
    Logged (Flow (State × Output κ)) := do
  let (state, actions) := step d s.1 p
  let (failure?, out) ← perform s.2 actions
  match failure? with
  | none => pure (.more (state, out))
  | some failure => pure (.fail (state, out) (.io failure))

structure Stats where
  packetsRead : Nat
  packetsWritten : Nat
  patsReduced : Nat
  deriving DecidableEq, Repr

def close (s : State × Output κ) : Logged (Except Error Stats × κ) := do
  let (failure?, out) ← perform s.2 (finish s.1)
  match failure? with
  | some failure => pure (.error (.io failure), out.sink)
  | none =>
      match Sink.flush out.sink with
      | (some failure, sink) => pure (.error (.io failure), sink)
      | (none, sink) =>
          pure (.ok ⟨s.1.packetsRead, out.packetsWritten, s.1.patsReduced⟩,
            sink)

end Filter

def filter {ρ κ : Type} [FiniteSource ρ] [Sink κ] (d : Discovery) (r : ρ)
    (k : κ) :
    Logged (Except Error Filter.Stats × κ) := do
  let pass ← Pass.start (Filter.stepInto d) r (Filter.State.initial, ⟨k, 0⟩)
  match pass.ending with
  | .failed e => pure (.error e, pass.state.2.sink)
  | _ => Filter.close pass.state

end TransportStream
