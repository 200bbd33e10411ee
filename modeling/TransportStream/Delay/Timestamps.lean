import TransportStream.Delay.Streams
import TransportStream.Pes.Assembler

/-!
# Finding the first timestamps

The audio timestamp is the first one on the audio identifier.  The video
timestamp is that of the first aligned unit on the video identifier whose data
opens with a sequence header.
-/

namespace TransportStream

def sequenceStartCode : Bytes := [0x00, 0x00, 0x01, 0xB3]

structure AudioWatch where
  pts : Option Timestamp
  deriving DecidableEq, Repr

namespace AudioWatch

def fresh : AudioWatch :=
  ⟨none⟩

def see (w : AudioWatch) (e : Pes.Event) : Logged AudioWatch :=
  match w.pts, e with
  | none, .header header =>
      match header.pts with
      | none => pure w
      | some pts => do
          Logged.note (.debug .delay s!"audio PTS {pts.toNat}")
          pure ⟨some pts⟩
  | _, _ => pure w

end AudioWatch

/-- Watches for the timestamp of the first aligned unit that opens with a
sequence header. -/
structure VideoWatch where
  pts : Option Timestamp
  header : Option Pes.Header
  opening : Bytes
  deriving DecidableEq, Repr

namespace VideoWatch

def fresh : VideoWatch :=
  ⟨none, none, []⟩

def seeData (w : VideoWatch) (header : Pes.Header) (data : Bytes) :
    Logged VideoWatch :=
  if !header.aligned || sequenceStartCode.length ≤ w.opening.length then pure w
  else
    let opening := (w.opening ++ data).take sequenceStartCode.length
    match opening == sequenceStartCode, header.pts with
    | true, some pts => do
        Logged.note (.debug .delay s!"video PTS {pts.toNat} (sequence header)")
        pure ⟨some pts, w.header, opening⟩
    | _, _ => pure ⟨none, w.header, opening⟩

def see (w : VideoWatch) (e : Pes.Event) : Logged VideoWatch :=
  match w.pts with
  | some _ => pure w
  | none =>
      match e, w.header with
      | .header header, _ => pure ⟨none, some header, []⟩
      | .data data, some header => seeData w header data
      | .data _, none => pure w

end VideoWatch

structure AvTimestamps where
  audio : Timestamp
  video : Timestamp
  deriving DecidableEq, Repr

namespace AvTimestamps

structure Search where
  audioUnits : Pes.Assembler
  videoUnits : Pes.Assembler
  audio : AudioWatch
  video : VideoWatch

namespace Search

def fresh : Search :=
  ⟨.idle, .idle, .fresh, .fresh⟩

/-- Look for timestamps in one packet.  A stream whose timestamp is known is not
followed any further. -/
def advance (pids : AvPids) (s : Search) (p : Packet) : Logged Search :=
  if p.pid = pids.audio ∧ s.audio.pts = none then do
    let (units, events) ← s.audioUnits.submit p
    let audio ← events.foldlM AudioWatch.see s.audio
    pure ⟨units, s.videoUnits, audio, s.video⟩
  else if p.pid = pids.video ∧ s.video.pts = none then do
    let (units, events) ← s.videoUnits.submit p
    let video ← events.foldlM VideoWatch.see s.video
    pure ⟨s.audioUnits, units, s.audio, video⟩
  else
    pure s

def timestamps? (s : Search) : Option AvTimestamps :=
  match s.audio.pts, s.video.pts with
  | some audio, some video => some ⟨audio, video⟩
  | _, _ => none

def step (pids : AvPids) (s : Search) (p : Packet) : Logged (Flow Search) := do
  let s' ← advance pids s p
  pure (if s'.timestamps?.isSome then .done s' else .more s')

def result (s : Search) : Except Error AvTimestamps :=
  match s.timestamps? with
  | some timestamps => .ok timestamps
  | none => .error (.discovery .timestamps)

end Search

def find {ρ : Type} [FiniteSource ρ] (r : ρ) (pids : AvPids) :
    Logged (Except Error AvTimestamps × ρ) := do
  let pass ← Pass.start (Search.step pids) r Search.fresh
  match pass.ending with
  | .failed e => pure (.error e, pass.source)
  | _ => pure (pass.state.result, pass.source)

end AvTimestamps
end TransportStream
