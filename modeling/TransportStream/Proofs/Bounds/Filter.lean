import TransportStream.Proofs.Bounds.Pass
import TransportStream.Proofs.Bounds.Reduction
import TransportStream.Proofs.Filter.Output

/-!
# Filtering frames by position

The filter holds frames back, locates association sections in their payloads and
rewrites them in place.  What it writes are whole frames.
-/

namespace TransportStream
namespace Filter

/-- The filter between two packets, with the frames it holds back. -/
structure PlacedState where
  held : List PlacedPacket
  packetsRead : Nat
  patsReduced : Nat
  deriving DecidableEq

def State.placed (s : State) : PlacedState :=
  ⟨s.held.map Packet.placed, s.packetsRead, s.patsReduced⟩

def acceptsPlaced (held : List PlacedPacket) (p : PlacedPacket) : Bool :=
  match held.getLast? with
  | none => false
  | some last =>
      !p.unitStart && !p.transportError &&
        p.continuityAfter last.counter == .next

def opensRunChecked (p : PlacedPacket) : Checked Bool :=
  if p.unitStart && !p.transportError then do
    let payload ← p.payload
    let span ← Pat.locateChecked payload payload.length
    pure (span == .unfinished)
  else
    pure false

def emitReducedChecked (pmtPids : PidSet) (run : List PlacedPacket) :
    Checked (Nat × List PlacedPacket) := do
  match ← Pat.reduceChecked? pmtPids run with
  | some reduced => pure (1, reduced)
  | none => pure (0, run)

def settleChecked (pmtPids : PidSet) (run : List PlacedPacket) :
    Checked (List PlacedPacket × Nat × List PlacedPacket) := do
  match ← Pat.spanOfChecked run with
  | .unfinished => pure (run, 0, [])
  | .complete _ _ => do
      let emitted ← emitReducedChecked pmtPids run
      pure ([], emitted)
  | .invalid => pure ([], 0, run)

def stepPatChecked (pmtPids : PidSet) (held : List PlacedPacket)
    (p : PlacedPacket) :
    Checked (List PlacedPacket × Nat × List PlacedPacket) :=
  if acceptsPlaced held p then settleChecked pmtPids (held ++ [p])
  else do
    if ← opensRunChecked p then pure ([p], 0, held)
    else do
      let (reduced, frames) ← emitReducedChecked pmtPids [p]
      pure ([], reduced, held ++ frames)

def stepChecked (d : Discovery) (s : PlacedState) (p : PlacedPacket) :
    Checked (PlacedState × List PlacedPacket) :=
  if p.pid = patPid then do
    let (held, reduced, frames) ← stepPatChecked d.pmtPids s.held p
    pure (⟨held, s.packetsRead + 1, s.patsReduced + reduced⟩, frames)
  else
    pure (⟨s.held, s.packetsRead + 1, s.patsReduced⟩,
      if d.keep.contains p.pid then [p] else [])

theorem acceptsPlaced_placed (held : List Packet) (p : Packet) :
    acceptsPlaced (held.map Packet.placed) p.placed = accepts held p := by
  unfold acceptsPlaced accepts
  rw [List.getLast?_map]
  cases held.getLast? with
  | none => rfl
  | some last => rfl

theorem opensRunChecked_placed (p : Packet) :
    opensRunChecked p.placed = .ok (opensRun p) := by
  unfold opensRunChecked opensRun
  rw [Packet.unitStart_placed, Packet.transportError_placed,
    Packet.payload_placed]
  cases hopens : p.unitStart && !p.transportError with
  | false => rfl
  | true =>
      have hspan :
          Pat.spanOf [p] = Pat.Span.locate p.payload p.payload.length := by
        rw [Pat.spanOf, Pat.joined_cons]
        exact congrArg (Pat.Span.locate · p.payload.length) (List.append_nil _)
      rw [if_pos rfl, Checked.ok_bind, Pat.locateChecked_eq_ok, Checked.ok_bind,
        hspan]
      rfl

theorem emitReducedChecked_placed (pmtPids : PidSet) (run : List Packet) :
    emitReducedChecked pmtPids (run.map Packet.placed) =
      .ok ((emitReduced pmtPids run).1,
        (written (emitReduced pmtPids run).2).map Packet.placed) := by
  rw [emitReducedChecked, Pat.reduceChecked?_placed, Checked.ok_bind]
  unfold emitReduced
  rcases Pat.reduce? pmtPids run with ⟨reduced?, log⟩
  cases reduced? with
  | none =>
      simp only [written_append, written_map_note, written_map_write]
      rfl
  | some reduced =>
      simp only [written_append, written_map_note, written_map_write]
      rfl

/-- What becomes of a packet, with frames in the place of packets and without
remarks. -/
def placedOutcome (outcome : List Packet × Nat × List Action) :
    List PlacedPacket × Nat × List PlacedPacket :=
  (outcome.1.map Packet.placed, outcome.2.1,
    (written outcome.2.2).map Packet.placed)

theorem settleChecked_placed (pmtPids : PidSet) (run : List Packet) :
    settleChecked pmtPids (run.map Packet.placed) =
      .ok (placedOutcome (settle pmtPids run)) := by
  rw [settleChecked, Pat.spanOfChecked_placed, Checked.ok_bind]
  unfold settle
  cases Pat.spanOf run with
  | unfinished => rfl
  | invalid =>
      dsimp only [placedOutcome]
      rw [written_release]
      rfl
  | complete start stop =>
      dsimp only
      rw [emitReducedChecked_placed]
      rfl

theorem stepPatChecked_placed (pmtPids : PidSet) (held : List Packet)
    (p : Packet) :
    stepPatChecked pmtPids (held.map Packet.placed) p.placed =
      .ok (placedOutcome (stepPat pmtPids held p)) := by
  unfold stepPatChecked stepPat
  rw [acceptsPlaced_placed]
  cases accepts held p with
  | true =>
      have hsettle := settleChecked_placed pmtPids (held ++ [p])
      rw [List.map_append] at hsettle
      exact hsettle
  | false =>
      rw [opensRunChecked_placed, if_neg Bool.false_ne_true,
        if_neg Bool.false_ne_true, Checked.ok_bind, startAfresh]
      cases opensRun p with
      | true =>
          rw [if_pos rfl, if_pos rfl, placedOutcome, written_append,
            written_release]
          simp only [written, List.append_nil]
          rfl
      | false =>
          have hemit := emitReducedChecked_placed pmtPids [p]
          rw [List.map_singleton] at hemit
          rw [if_neg Bool.false_ne_true, if_neg Bool.false_ne_true, hemit,
            placedOutcome, written_append, written_release, List.map_append]
          rfl

theorem stepChecked_placed (d : Discovery) (s : State) (p : Packet) :
    stepChecked d s.placed p.placed =
      .ok ((step d s p).1.placed,
        (written (step d s p).2).map Packet.placed) := by
  unfold stepChecked step
  rw [Packet.pid_placed]
  by_cases hp : p.pid = patPid
  · rw [if_pos hp, if_pos hp]
    show (stepPatChecked d.pmtPids (s.held.map Packet.placed) p.placed >>=
      _) = _
    rw [stepPatChecked_placed]
    rfl
  · rw [if_neg hp, if_neg hp]
    cases d.keep.contains p.pid with
    | true => rfl
    | false => rfl

/-!
## Writing frames
-/

variable {ρ κ : Type} [FiniteSource ρ] [Sink κ]

def emit (out : Output κ) : List PlacedPacket -> Option IoFailure × Output κ
  | [] => (none, out)
  | p :: rest =>
      match Sink.writeAll out.sink p.frame with
      | (none, sink) => emit ⟨sink, out.packetsWritten + 1⟩ rest
      | (some failure, sink) => (some failure, ⟨sink, out.packetsWritten⟩)

theorem emit_written (out : Output κ) (actions : List Action) :
    emit out ((written actions).map Packet.placed) =
      (perform out actions).value := by
  induction actions generalizing out with
  | nil => rfl
  | cons action actions ih =>
      cases action with
      | note record => exact ih out
      | write p =>
          rw [written, List.map_cons, emit, perform, Packet.frame_placed]
          rcases Sink.writeAll out.sink p.bytes with ⟨failure?, sink⟩
          cases failure? with
          | none => exact ih ⟨sink, out.packetsWritten + 1⟩
          | some failure => rfl

def stepIntoChecked (d : Discovery) (s : PlacedState × Output κ)
    (p : PlacedPacket) :
    Checked (Flow (PlacedState × Output κ)) := do
  let (state, frames) ← stepChecked d s.1 p
  match emit s.2 frames with
  | (none, out) => pure (.more (state, out))
  | (some failure, out) => pure (.fail (state, out) (.io failure))

def closePlaced (s : PlacedState × Output κ) : Except Error Stats × κ :=
  match emit s.2 s.1.held with
  | (some failure, out) => (.error (.io failure), out.sink)
  | (none, out) =>
      match Sink.flush out.sink with
      | (some failure, sink) => (.error (.io failure), sink)
      | (none, sink) =>
          (.ok ⟨s.1.packetsRead, out.packetsWritten, s.1.patsReduced⟩, sink)

theorem stepIntoChecked_placed (d : Discovery) (s : State × Output κ)
    (p : Packet) :
    stepIntoChecked d (s.1.placed, s.2) p.placed =
      .ok ((stepInto d s p).value.map fun s => (s.1.placed, s.2)) := by
  unfold stepIntoChecked stepInto
  dsimp only
  rw [stepChecked_placed, Checked.ok_bind]
  dsimp only
  rw [emit_written]
  simp only [Logged.value_bind]
  rcases (perform s.2 (step d s.1 p).2).value with ⟨failure?, out⟩
  cases failure? with
  | none => rfl
  | some failure => rfl

theorem closePlaced_placed (s : State × Output κ) :
    closePlaced (s.1.placed, s.2) = (close s).value := by
  have hemit := emit_written s.2 (finish s.1)
  rw [finish, written_release] at hemit
  unfold closePlaced close
  simp only [Logged.value_bind]
  rw [finish, ← hemit]
  show (match emit s.2 (s.1.held.map Packet.placed) with
    | (some failure, out) => _ | (none, out) => _) = _
  rcases emit s.2 (s.1.held.map Packet.placed) with ⟨failure?, out⟩
  cases failure? with
  | some failure => rfl
  | none =>
      dsimp only
      rcases Sink.flush out.sink with ⟨failure?, sink⟩
      cases failure? with
      | some failure => rfl
      | none => rfl

end Filter

variable {ρ κ : Type} [FiniteSource ρ] [Sink κ]

def filterChecked (d : Discovery) (r : ρ) (k : κ) :
    Checked (Except Error Filter.Stats × κ) := do
  let pass ← Pass.runChecked (Filter.stepIntoChecked d) r (⟨[], 0, 0⟩, ⟨k, 0⟩)
  match pass.ending with
  | .failed e => pure (.error e, pass.state.2.sink)
  | _ => pure (Filter.closePlaced pass.state)

theorem filterChecked_eq_ok (d : Discovery) (r : ρ) (k : κ) :
    filterChecked d r k = .ok (filter d r k).value := by
  have hrun :=
    Pass.runChecked_eq_ok (Filter.stepIntoChecked_placed (κ := κ) d) r
      (Filter.State.initial, ⟨k, 0⟩) #[]
  unfold filterChecked filter
  show (Pass.runChecked _ r (Filter.State.initial.placed, _) >>= _) = _
  rw [hrun, Checked.ok_bind, Logged.value_bind, Pass.start]
  rcases (Pass.run (Filter.stepInto d) r (Filter.State.initial, ⟨k, 0⟩)
    #[]).value with
    ⟨ending, s, r'⟩
  cases ending with
  | failed e => rfl
  | satisfied => exact congrArg Except.ok (Filter.closePlaced_placed s)
  | exhausted => exact congrArg Except.ok (Filter.closePlaced_placed s)

end TransportStream
