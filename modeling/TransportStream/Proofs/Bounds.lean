import TransportStream.Proofs.Bounds.Filter
import TransportStream.Proofs.Bounds.Pes
import TransportStream.Proofs.Bounds.Table
import TransportStream.TableReport

/-!
# No stream leads out of bounds

Every pass over a stream is stated a second time with steps that compute
positions and check every access to bytes.  Step by step both do the same, and
so no check ever fails: not for any bytes, for any way a source hands them out,
nor for any identifiers a pass is told to look for.
-/

namespace TransportStream

/-!
## Discovery
-/

namespace Survey

def stepPatChecked (s : Survey) (p : PlacedPacket) : Checked Survey :=
  if p.pid = patPid then do
    let (decoder, known) ←
      s.patDecoder.submitChecked p (fun k t _ => addPat k t)
        (s.found, s.pmtDecoders)
    pure ⟨known.1, decoder, known.2⟩
  else
    pure s

def stepPmtChecked (s : Survey) (p : PlacedPacket) : Checked Survey :=
  match s.pmtDecoders.get? p.pid with
  | none => pure s
  | some decoder => do
      let (decoder', found) ←
        decoder.submitChecked p (fun d t _ => d.addPmt p.pid t) s.found
      pure ⟨found, s.patDecoder, s.pmtDecoders.put p.pid decoder'⟩

def stepChecked (s : Survey) (p : PlacedPacket) : Checked (Flow Survey) := do
  let s' ← stepPatChecked s p
  let s'' ← stepPmtChecked s' p
  pure (if s''.found.isComplete then .done s'' else .more s'')

theorem stepPatChecked_placed (s : Survey) (p : Packet) :
    stepPatChecked s p.placed = .ok (stepPat s p).value := by
  unfold stepPatChecked stepPat
  rw [Packet.pid_placed]
  by_cases hp : p.pid = patPid
  · rw [if_pos hp, if_pos hp, TableDecoder.submitChecked_placed]
    rfl
  · rw [if_neg hp, if_neg hp]
    rfl

theorem stepPmtChecked_placed (s : Survey) (p : Packet) :
    stepPmtChecked s p.placed = .ok (stepPmt s p).value := by
  unfold stepPmtChecked stepPmt
  rw [Packet.pid_placed]
  cases s.pmtDecoders.get? p.pid with
  | none => rfl
  | some decoder =>
      dsimp only
      rw [TableDecoder.submitChecked_placed]
      rfl

theorem stepChecked_placed (s : Survey) (p : Packet) :
    stepChecked s p.placed = .ok (step s p).value := by
  rw [stepChecked, stepPatChecked_placed, Checked.ok_bind,
    stepPmtChecked_placed]
  rfl

end Survey

variable {ρ κ : Type} [FiniteSource ρ] [Sink κ]

def discoverChecked (r : ρ) : Checked (Except Error Discovery × ρ) := do
  let pass ← Pass.runChecked Survey.stepChecked r Survey.fresh
  match pass.ending with
  | .satisfied => pure (.ok pass.state.found, pass.source)
  | .exhausted => pure (.error (.discovery .programMap), pass.source)
  | .failed e => pure (.error e, pass.source)

theorem discoverChecked_eq_ok (r : ρ) :
    discoverChecked r = .ok (discover r).value := by
  rw [discoverChecked,
    Pass.runChecked_of_steps Survey.stepChecked_placed r Survey.fresh #[],
    Checked.ok_bind, discover, Logged.value_bind, Pass.start]
  cases (Pass.run Survey.step r Survey.fresh #[]).value.ending with
  | satisfied => rfl
  | exhausted => rfl
  | failed e => rfl

/-!
## The audio and the video of a program
-/

namespace AvPids
namespace Search

def advanceChecked (s : Search) (p : PlacedPacket) : Checked Search :=
  if p.pid = patPid ∧ s.known.pmtPid = none then do
    let (decoder, known) ←
      s.patDecoder.submitChecked p (fun k t _ => k.addPat t) s.known
    pure ⟨known, decoder, s.pmtDecoder⟩
  else if s.known.pmtPid = some p.pid then do
    let (decoder, known) ←
      s.pmtDecoder.submitChecked p (fun k t _ => pure (k.addPmt t)) s.known
    pure ⟨known, s.patDecoder, decoder⟩
  else
    pure s

def stepChecked (s : Search) (p : PlacedPacket) : Checked (Flow Search) := do
  let s' ← advanceChecked s p
  pure (if s'.known.pids?.isSome then .done s' else .more s')

theorem advanceChecked_placed (s : Search) (p : Packet) :
    advanceChecked s p.placed = .ok (advance s p).value := by
  unfold advanceChecked advance
  rw [Packet.pid_placed]
  by_cases hpat : p.pid = patPid ∧ s.known.pmtPid = none
  · rw [if_pos hpat, if_pos hpat, TableDecoder.submitChecked_placed]
    rfl
  rw [if_neg hpat, if_neg hpat]
  by_cases hpmt : s.known.pmtPid = some p.pid
  · rw [if_pos hpmt, if_pos hpmt, TableDecoder.submitChecked_placed]
    rfl
  · rw [if_neg hpmt, if_neg hpmt]
    rfl

theorem stepChecked_placed (s : Search) (p : Packet) :
    stepChecked s p.placed = .ok (step s p).value := by
  rw [stepChecked, advanceChecked_placed, Checked.ok_bind, step,
    Logged.value_bind]
  cases (advance s p).value.known.pids? with
  | none => rfl
  | some pids => rfl

end Search

def findChecked (r : ρ) : Checked (Except Error AvPids × ρ) := do
  let pass ← Pass.runChecked Search.stepChecked r Search.fresh
  match pass.ending with
  | .failed e => pure (.error e, pass.source)
  | _ => pure (pass.state.result, pass.source)

theorem findChecked_eq_ok (r : ρ) : findChecked r = .ok (find r).value := by
  rw [findChecked,
    Pass.runChecked_of_steps Search.stepChecked_placed r Search.fresh #[],
    Checked.ok_bind, find, Logged.value_bind, Pass.start]
  cases (Pass.run Search.step r Search.fresh #[]).value.ending with
  | failed e => rfl
  | satisfied => rfl
  | exhausted => rfl

end AvPids

/-!
## The first timestamps
-/

theorem VideoWatch.foldlM_see_counted (w : VideoWatch)
    (events : List Pes.Event) :
    events.foldlM VideoCount.see w.counted =
      .ok (events.foldlM VideoWatch.see w).value.counted := by
  rw [Logged.value_foldlM]
  exact Checked.foldlM_eq_ok see_counted w events

namespace AvTimestamps

/-- A search under way that counts the bytes of a start code. -/
structure CountingSearch where
  audioUnits : Pes.Assembler
  videoUnits : Pes.Assembler
  audio : AudioWatch
  video : VideoCount

namespace CountingSearch

def fresh : CountingSearch :=
  ⟨.idle, .idle, .fresh, .fresh⟩

def advance (pids : AvPids) (s : CountingSearch) (p : PlacedPacket) :
    Checked CountingSearch :=
  if p.pid = pids.audio ∧ s.audio.pts = none then do
    let (units, events) ← s.audioUnits.submitChecked p
    pure ⟨units, s.videoUnits, (events.foldlM AudioWatch.see s.audio).value,
      s.video⟩
  else if p.pid = pids.video ∧ s.video.pts = none then do
    let (units, events) ← s.videoUnits.submitChecked p
    let video ← events.foldlM VideoCount.see s.video
    pure ⟨s.audioUnits, units, s.audio, video⟩
  else
    pure s

def timestamps? (s : CountingSearch) : Option AvTimestamps :=
  match s.audio.pts, s.video.pts with
  | some audio, some video => some ⟨audio, video⟩
  | _, _ => none

def step (pids : AvPids) (s : CountingSearch) (p : PlacedPacket) :
    Checked (Flow CountingSearch) := do
  let s' ← advance pids s p
  pure (if s'.timestamps?.isSome then .done s' else .more s')

def result (s : CountingSearch) : Except Error AvTimestamps :=
  match s.timestamps? with
  | some timestamps => .ok timestamps
  | none => .error (.discovery .timestamps)

end CountingSearch

namespace Search

def counting (s : Search) : CountingSearch :=
  ⟨s.audioUnits, s.videoUnits, s.audio, s.video.counted⟩

theorem advance_counting (pids : AvPids) (s : Search) (p : Packet) :
    s.counting.advance pids p.placed =
      .ok (s.advance pids p).value.counting := by
  show (if p.pid = pids.audio ∧ s.audio.pts = none then _
    else if p.pid = pids.video ∧ s.video.pts = none then _ else _) = _
  unfold advance
  by_cases haudio : p.pid = pids.audio ∧ s.audio.pts = none
  · rw [if_pos haudio, if_pos haudio]
    show (s.audioUnits.submitChecked p.placed >>= _) = _
    rw [Pes.Assembler.submitChecked_placed]
    rfl
  rw [if_neg haudio, if_neg haudio]
  by_cases hvideo : p.pid = pids.video ∧ s.video.pts = none
  · rw [if_pos hvideo, if_pos hvideo]
    show (s.videoUnits.submitChecked p.placed >>= _) = _
    rw [Pes.Assembler.submitChecked_placed, Checked.ok_bind]
    show (List.foldlM VideoCount.see s.video.counted _ >>= _) = _
    rw [VideoWatch.foldlM_see_counted]
    rfl
  · rw [if_neg hvideo, if_neg hvideo]
    rfl

theorem step_counting (pids : AvPids) (s : Search) (p : Packet) :
    s.counting.step pids p.placed =
      .ok ((s.step pids p).value.map counting) := by
  rw [CountingSearch.step, advance_counting, Checked.ok_bind, step,
    Logged.value_bind]
  have hsame : (advance pids s p).value.counting.timestamps? =
      (advance pids s p).value.timestamps? := rfl
  rw [hsame]
  cases (advance pids s p).value.timestamps? with
  | none => rfl
  | some timestamps => rfl

end Search

def findChecked (r : ρ) (pids : AvPids) :
    Checked (Except Error AvTimestamps × ρ) := do
  let pass ← Pass.runChecked (CountingSearch.step pids) r CountingSearch.fresh
  match pass.ending with
  | .failed e => pure (.error e, pass.source)
  | _ => pure (pass.state.result, pass.source)

theorem findChecked_eq_ok (r : ρ) (pids : AvPids) :
    findChecked r pids = .ok (find r pids).value := by
  have hrun :=
    Pass.runChecked_eq_ok (Search.step_counting pids) r Search.fresh #[]
  have hfresh : Search.fresh.counting = CountingSearch.fresh := rfl
  rw [hfresh] at hrun
  rw [findChecked, hrun, Checked.ok_bind, find, Logged.value_bind, Pass.start]
  rcases (Pass.run (Search.step pids) r Search.fresh #[]).value with
    ⟨ending, s, r'⟩
  cases ending with
  | failed e => rfl
  | satisfied => rfl
  | exhausted => rfl

end AvTimestamps

/-!
## Table reports
-/

namespace TableReport
namespace Survey

def advanceChecked (s : Survey) (p : PlacedPacket) : Checked Survey :=
  if p.pid = patPid then do
    let (decoder, known) ←
      s.patDecoder.submitChecked p addPat (s.report, s.pmtDecoders)
    pure ⟨known.1, decoder, known.2⟩
  else
    match s.pmtDecoders.get? p.pid with
    | none => pure s
    | some decoder => do
        let (decoder', report) ← decoder.submitChecked p
          (fun report t bytes => pure (addPmt p.pid report t bytes)) s.report
        pure ⟨report, s.patDecoder, s.pmtDecoders.put p.pid decoder'⟩

def stepChecked (s : Survey) (p : PlacedPacket) : Checked (Flow Survey) := do
  let s' ← advanceChecked s.count p
  pure (.more s')

theorem advanceChecked_placed (s : Survey) (p : Packet) :
    advanceChecked s p.placed = .ok (advance s p).value := by
  unfold advanceChecked advance
  rw [Packet.pid_placed]
  by_cases hp : p.pid = patPid
  · rw [if_pos hp, if_pos hp, TableDecoder.submitChecked_placed]
    rfl
  rw [if_neg hp, if_neg hp]
  cases s.pmtDecoders.get? p.pid with
  | none => rfl
  | some decoder =>
      dsimp only
      rw [TableDecoder.submitChecked_placed]
      rfl

theorem stepChecked_placed (s : Survey) (p : Packet) :
    stepChecked s p.placed = .ok (step s p).value := by
  rw [stepChecked, advanceChecked_placed]
  rfl

end Survey

def collectChecked (r : ρ) : Checked (Except Error TableReport) := do
  let pass ← Pass.runChecked Survey.stepChecked r Survey.fresh
  match pass.ending with
  | .failed e => pure (.error e)
  | _ => pure (.ok pass.state.report)

theorem collectChecked_eq_ok (r : ρ) :
    collectChecked r = .ok (collect r).value := by
  rw [collectChecked,
    Pass.runChecked_of_steps Survey.stepChecked_placed r Survey.fresh #[],
    Checked.ok_bind, collect, Logged.value_bind, Pass.start]
  cases (Pass.run Survey.step r Survey.fresh #[]).value.ending with
  | failed e => rfl
  | satisfied => rfl
  | exhausted => rfl

end TableReport

/-- Reading frames, asking packets for their parts and walking descriptors stays
within bounds, and so does every pass: the checked accesses give what the passes
over packets give. -/
theorem accesses_stay_within_bounds :
    (forall f : Frame,
      PlacedPacket.parse f.bytes = .ok ((Packet.parse f).map Packet.placed)) ∧
    (forall p : Packet, p.placed.adaptation? = .ok p.adaptation? ∧
      p.placed.payload = .ok p.payload) ∧
    (forall loop : DescriptorLoop, Descriptor.walkChecked loop.bytes =
      .ok loop.descriptors) ∧
    forall (d : Discovery) (pids : AvPids) (r : ρ) (k : κ),
      discoverChecked r = .ok (discover r).value ∧
        filterChecked d r k = .ok (filter d r k).value ∧
        AvPids.findChecked r = .ok (AvPids.find r).value ∧
        AvTimestamps.findChecked r pids = .ok (AvTimestamps.find r pids).value ∧
        TableReport.collectChecked r = .ok (TableReport.collect r).value := by
  refine ⟨Packet.parse_placed, ?_, ?_, ?_⟩
  · intro p
    exact ⟨Packet.adaptation?_placed p, Packet.payload_placed p⟩
  · intro loop
    exact Descriptor.walkChecked_eq_ok loop.bytes
  · intro d pids r k
    exact ⟨discoverChecked_eq_ok r, filterChecked_eq_ok d r k,
      AvPids.findChecked_eq_ok r, AvTimestamps.findChecked_eq_ok r pids,
      TableReport.collectChecked_eq_ok r⟩

end TransportStream
