import TransportStream.Pass
import TransportStream.Pat
import TransportStream.PidMap
import TransportStream.PidSet
import TransportStream.Pmt

/-!
# Discovering the programs of a stream

Discovery reads packets until the program map of every announced program was
decoded once.  From then on it is known which packet identifiers belong to the
programs.  The one-segment program is never followed.
-/

namespace TransportStream

structure Discovery where
  pmtPids : PidSet
  resolved : PidSet
  keep : PidSet
  deriving DecidableEq

namespace Discovery

def empty : Discovery :=
  ⟨∅, ∅, ∅⟩

def isComplete (d : Discovery) : Bool :=
  !d.pmtPids.isEmpty && d.pmtPids.size == d.resolved.size

/-- The first program map on an identifier decides what belongs to the
program. -/
def addPmt (pid : Nat) (d : Discovery) (t : Pmt) : Logged Discovery :=
  if d.resolved.contains pid then pure d
  else do
    Logged.note (.debug .split
      s!"PMT {Text.hex4 pid}: pcr {Text.hex4 t.clockPid}, {t.streams.length} streams")
    pure
      { pmtPids := d.pmtPids
        resolved := d.resolved.insert pid
        keep := (t.streams.map (·.pid)).foldl PidSet.insert
          ((d.keep.insert pid).insert t.clockPid) }

end Discovery

structure Survey where
  found : Discovery
  patDecoder : TableDecoder Pat
  pmtDecoders : PidMap (TableDecoder Pmt)

namespace Survey

def fresh : Survey :=
  ⟨.empty, .fresh, ∅⟩

/-- What is known and the decoders in use, as far as association tables change
them. -/
abbrev Known := Discovery × PidMap (TableDecoder Pmt)

/-- The network's identifier is kept; a program map seen for the first time is
followed. -/
def addAssociation (k : Known) (a : Pat.Association) : Logged Known :=
  if a.isNetwork then
    pure (⟨k.1.pmtPids, k.1.resolved, k.1.keep.insert a.pid⟩, k.2)
  else if a.pid = oneSegmentPid ∨ k.1.pmtPids.contains a.pid then
    pure k
  else do
    Logged.note
      (.debug .split s!"program {a.program} -> PMT pid {Text.hex4 a.pid}")
    pure (⟨k.1.pmtPids.insert a.pid, k.1.resolved, k.1.keep⟩,
      k.2.put a.pid .fresh)

def addPat (k : Known) (t : Pat) : Logged Known :=
  t.associations.foldlM addAssociation k

def stepPat (s : Survey) (p : Packet) : Logged Survey :=
  if p.pid = patPid then do
    let (decoder, known) ←
      s.patDecoder.submit p (fun k t _ => addPat k t) (s.found, s.pmtDecoders)
    pure ⟨known.1, decoder, known.2⟩
  else
    pure s

def stepPmt (s : Survey) (p : Packet) : Logged Survey :=
  match s.pmtDecoders.get? p.pid with
  | none => pure s
  | some decoder => do
      let (decoder', found) ←
        decoder.submit p (fun d t _ => d.addPmt p.pid t) s.found
      pure ⟨found, s.patDecoder, s.pmtDecoders.put p.pid decoder'⟩

def step (s : Survey) (p : Packet) : Logged (Flow Survey) := do
  let s' ← stepPat s p
  let s'' ← stepPmt s' p
  pure (if s''.found.isComplete then .done s'' else .more s'')

end Survey

variable {ρ : Type} [FiniteSource ρ]

def discover (r : ρ) : Logged (Except Error Discovery × ρ) := do
  let pass ← Pass.start Survey.step r Survey.fresh
  match pass.ending with
  | .satisfied => pure (.ok pass.state.found, pass.source)
  | .exhausted => pure (.error (.discovery .programMap), pass.source)
  | .failed e => pure (.error e, pass.source)

end TransportStream
