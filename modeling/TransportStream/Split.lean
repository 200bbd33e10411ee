import TransportStream.Filter
import TransportStream.Source.Recorder

/-!
# Splitting off the programs of a stream

A stream is filtered by what discovery finds in it.  The part that discovery
reads is recorded and read again ahead of the rest, so that nothing is lost.
-/

namespace TransportStream

def PidSet.listing (s : PidSet) : String :=
  "[" ++ String.intercalate ", " (s.toList.map (Text.padded 16 4)) ++ "]"

namespace Split

variable {ρ κ : Type} [FiniteSource ρ] [Sink κ]

def discoveryRemark (recorder : Recorder ρ) (d : Discovery) : Record :=
  .debug .split
    s!"discovery done after {recorder.recordedLength} bytes, keeping pids {d.keep.listing}"

def statsRemark (stats : Filter.Stats) : Record :=
  .debug .split
    (s!"split: {stats.packetsWritten} of {stats.packetsRead} packets written, " ++
      s!"{stats.patsReduced} PATs rewritten")

def filterAndReport (d : Discovery) (r : ρ) (k : κ) :
    Logged (Except Error Filter.Stats × κ) := do
  let (stats, sink) ← filter d r k
  Logged.note? (stats.toOption.map statsRemark)
  pure (stats, sink)

end Split

/-- Discover the programs of a source, and filter it from its first byte. -/
def split {ρ κ : Type} [FiniteSource ρ] [Sink κ] (r : ρ) (k : κ) :
    Logged (Except Error Filter.Stats × κ) := do
  let (discovery, recorder) ← discover (Recorder.ofSource r)
  match discovery with
  | .error e => pure (.error e, k)
  | .ok d =>
      Logged.note (Split.discoveryRemark recorder d)
      Split.filterAndReport d recorder.replay k

end TransportStream
