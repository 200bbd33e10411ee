import TransportStream.Pass
import TransportStream.Pat
import TransportStream.Pmt

/-!
# Finding the audio and video of a program

The first association table that names a program other than the one-segment
program decides which program map is read.  The first AAC stream and the first
MPEG-2 video stream found there are the audio and the video of the program.
-/

namespace TransportStream

structure AvPids where
  audio : Nat
  video : Nat
  deriving DecidableEq, Repr

namespace AvPids

structure Partly where
  pmtPid : Option Nat
  audio : Option Nat
  video : Option Nat
  deriving DecidableEq, Repr

namespace Partly

def addPat (k : Partly) (t : Pat) : Logged Partly :=
  match k.pmtPid with
  | some _ => pure k
  | none =>
      match t.programs.find? (·.pid ≠ oneSegmentPid) with
      | none => pure k
      | some a => do
          Logged.note (.debug .delay s!"delay: PMT pid {Text.hex4 a.pid}")
          pure ⟨some a.pid, k.audio, k.video⟩

/-- What is known already is not changed. -/
def addPmt (k : Partly) (t : Pmt) : Partly where
  pmtPid := k.pmtPid
  audio := k.audio <|> (t.find? .aacAdts).map (·.pid)
  video := k.video <|> (t.find? .mpeg2Video).map (·.pid)

def pids? (k : Partly) : Option AvPids :=
  match k.audio, k.video with
  | some audio, some video => some ⟨audio, video⟩
  | _, _ => none

end Partly

structure Search where
  known : Partly
  patDecoder : TableDecoder Pat
  pmtDecoder : TableDecoder Pmt

namespace Search

def fresh : Search :=
  ⟨⟨none, none, none⟩, .fresh, .fresh⟩

def advance (s : Search) (p : Packet) : Logged Search :=
  if p.pid = patPid ∧ s.known.pmtPid = none then do
    let (decoder, known) ←
      s.patDecoder.submit p (fun k t _ => k.addPat t) s.known
    pure ⟨known, decoder, s.pmtDecoder⟩
  else if s.known.pmtPid = some p.pid then do
    let (decoder, known) ←
      s.pmtDecoder.submit p (fun k t _ => pure (k.addPmt t)) s.known
    pure ⟨known, s.patDecoder, decoder⟩
  else
    pure s

def pidsRemark (pids : AvPids) : Record :=
  .debug .delay
    s!"delay: audio pid {Text.hex4 pids.audio}, video pid {Text.hex4 pids.video}"

def step (s : Search) (p : Packet) : Logged (Flow Search) := do
  let s' ← advance s p
  match s'.known.pids? with
  | none => pure (.more s')
  | some pids => do
      Logged.note (pidsRemark pids)
      pure (.done s')

def result (s : Search) : Except Error AvPids :=
  match s.known.pids? with
  | some pids => .ok pids
  | none => .error (.discovery .audioVideoProgram)

end Search

def find {ρ : Type} [FiniteSource ρ] (r : ρ) :
    Logged (Except Error AvPids × ρ) := do
  let pass ← Pass.start Search.step r Search.fresh
  match pass.ending with
  | .failed e => pure (.error e, pass.source)
  | _ => pure (pass.state.result, pass.source)

end AvPids
end TransportStream
