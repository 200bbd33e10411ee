import TransportStream.Delay.Timestamps
import TransportStream.Source.Recorder
import TransportStream.Text.Decimal

/-!
# The delay of video against audio

Timestamps count modulo `2 ^ 33`.  Video may lag audio by at most ten seconds;
video that precedes audio appears as a lag of almost the whole range and is
rejected with every other implausible lag.
-/

namespace TransportStream

def ticksPerSecond : Nat := 90000

def timestampRange : UInt64 := 0x200000000

/-- The greatest plausible delay: ten seconds. -/
def maxDelayTicks : UInt64 := 900000

structure Delay where
  audio : Timestamp
  video : Timestamp
  ticks : UInt64
  deriving DecidableEq, Repr

namespace Delay

def ofTimestamps (t : AvTimestamps) : Except Error Delay :=
  let ticks := (t.video - t.audio) &&& (timestampRange - 1)
  if maxDelayTicks < ticks then .error (.implausibleDelay ticks)
  else .ok ⟨t.audio, t.video, ticks⟩

def seconds (d : Delay) : Float :=
  d.ticks.toFloat / Float.ofNat ticksPerSecond

def secondsText (d : Delay) : String :=
  Text.fixed d.ticks.toNat ticksPerSecond 6

def recordingRemark {ρ : Type} (recorder : Recorder ρ) : Record :=
  .debug .delay s!"delay: discovery read {recorder.recordedLength} bytes"

def measure {ρ : Type} [FiniteSource ρ] (r : ρ) :
    Logged (Except Error Delay) := do
  let (pids, recorder) ← AvPids.find (Recorder.ofSource r)
  match pids with
  | .error e => pure (.error e)
  | .ok pids => do
      Logged.note (recordingRemark recorder)
      let (timestamps, _) ← AvTimestamps.find recorder.replay pids
      pure (timestamps.bind ofTimestamps)

end Delay
end TransportStream
