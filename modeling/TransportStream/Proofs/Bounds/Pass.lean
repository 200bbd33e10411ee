import TransportStream.Proofs.Bounds.Packet
import TransportStream.Proofs.Pass.Reads

/-!
# Passes over parsed frames

A pass whose steps work on frames with positions goes the same way as a pass
over packets, as long as its steps do.  The states may differ, if those of the
one can be computed from those of the other.
-/

namespace TransportStream

namespace Reader

variable {ρ : Type} [FiniteSource ρ]

def readChecked (r : ρ) : Checked (Except Error PlacedPacket × ρ) :=
  match readFrame r with
  | (.complete f, r') => do
      let p ← PlacedPacket.parse f.bytes
      pure (p, r')
  | (.ended _, r') => pure (.error .endOfStream, r')
  | (.failed failure, r') => pure (.error (.io failure), r')

theorem readChecked_eq_ok {r r' : ρ} {outcome : Except Error Packet}
    (h : (readPacket r).value = (outcome, r')) :
    readChecked r = .ok (outcome.map Packet.placed, r') := by
  have hvalue : ((packetOf (readFrame r).1).value, (readFrame r).2) =
      (outcome, r') := h
  unfold readChecked
  rcases hframe : readFrame r with ⟨collected, r''⟩
  rw [hframe] at hvalue
  cases hvalue
  cases collected with
  | complete f =>
      dsimp only
      rw [Packet.parse_placed, Checked.ok_bind]
      rfl
  | ended collected => rfl
  | failed failure => rfl

theorem remaining_lt_of_readChecked {r r' : ρ} {p : PlacedPacket}
    (h : readChecked r = .ok (.ok p, r')) :
    FiniteSource.remaining r' < FiniteSource.remaining r := by
  rcases hvalue : (readPacket r).value with ⟨outcome, r''⟩
  rw [readChecked_eq_ok hvalue] at h
  cases outcome with
  | error e => cases h
  | ok q =>
      cases h
      exact remaining_lt_of_readPacket hvalue

end Reader

def Flow.map {σ τ : Type} (f : σ -> τ) : Flow σ -> Flow τ
  | .more s => .more (f s)
  | .done s => .done (f s)
  | .fail s e => .fail (f s) e

namespace Pass

variable {ρ σ τ : Type} [FiniteSource ρ]

def map (f : σ -> τ) (pass : Pass ρ σ) : Pass ρ τ :=
  ⟨pass.ending, f pass.state, pass.source⟩

def runChecked (step : σ -> PlacedPacket -> Checked (Flow σ)) (r : ρ) (s : σ) :
    Checked (Pass ρ σ) :=
  match hread : Reader.readChecked r with
  | .error fault => .error fault
  | .ok (.error e, r') => pure ⟨.ofError e, s, r'⟩
  | .ok (.ok p, r') => do
      have := Reader.remaining_lt_of_readChecked hread
      match ← step s p with
      | .more s' => runChecked step r' s'
      | .done s' => pure ⟨.satisfied, s', r'⟩
      | .fail s' e => pure ⟨.failed e, s', r'⟩
termination_by FiniteSource.remaining r

def turnChecked (step : σ -> PlacedPacket -> Checked (Flow σ)) (r : ρ) (s : σ) :
    Except Error PlacedPacket -> Checked (Pass ρ σ)
  | .error e => pure ⟨.ofError e, s, r⟩
  | .ok p => do
      match ← step s p with
      | .more s' => runChecked step r s'
      | .done s' => pure ⟨.satisfied, s', r⟩
      | .fail s' e => pure ⟨.failed e, s', r⟩

theorem runChecked_of_read {step : σ -> PlacedPacket -> Checked (Flow σ)}
    {r r' : ρ} {outcome : Except Error PlacedPacket}
    (h : Reader.readChecked r = .ok (outcome, r')) (s : σ) :
    runChecked step r s = turnChecked step r' s outcome := by
  rw [runChecked]
  split
  · rename_i fault hread
    rw [h] at hread
    cases hread
  · rename_i e r'' hread
    rw [h] at hread
    cases hread
    rfl
  · rename_i p r'' hread
    rw [h] at hread
    cases hread
    rfl

/-- If no step of a pass ends in a fault, the pass does not, and it goes the
same way. -/
theorem runChecked_eq_ok {step : σ -> Packet -> Logged (Flow σ)}
    {stepChecked : τ -> PlacedPacket -> Checked (Flow τ)} {f : σ -> τ}
    (h : forall s p, stepChecked (f s) p.placed = .ok ((step s p).value.map f))
    (r : ρ) (s : σ) (log : Log) :
    runChecked stepChecked r (f s) = .ok ((run step r s log).value.map f) := by
  refine run_induction
    (motive := fun r s pass => runChecked stepChecked r (f s) =
      .ok (pass.map f))
    ?_ ?_ ?_ ?_ ?_ r s log
  · intro r r' s hread
    rw [runChecked_of_read (Reader.readChecked_eq_ok hread)]
    rfl
  · intro r r' s e he hread
    rw [runChecked_of_read (Reader.readChecked_eq_ok hread),
      ← Ending.ofError_of_ne he]
    rfl
  · intro r r' s s' p pass hread hstep ih
    rw [runChecked_of_read (Reader.readChecked_eq_ok hread)]
    show (stepChecked (f s) p.placed >>= _) = _
    rw [h, hstep, Checked.ok_bind]
    exact ih
  · intro r r' s s' p hread hstep
    rw [runChecked_of_read (Reader.readChecked_eq_ok hread)]
    show (stepChecked (f s) p.placed >>= _) = _
    rw [h, hstep]
    rfl
  · intro r r' s s' p e hread hstep
    rw [runChecked_of_read (Reader.readChecked_eq_ok hread)]
    show (stepChecked (f s) p.placed >>= _) = _
    rw [h, hstep]
    rfl

theorem runChecked_of_steps {step : σ -> Packet -> Logged (Flow σ)}
    {stepChecked : σ -> PlacedPacket -> Checked (Flow σ)}
    (h : forall s p, stepChecked s p.placed = .ok (step s p).value) (r : ρ)
    (s : σ) (log : Log) :
    runChecked stepChecked r s = .ok (run step r s log).value := by
  refine runChecked_eq_ok (f := id) ?_ r s log
  intro s p
  rw [id, h]
  cases (step s p).value with
  | more s' => rfl
  | done s' => rfl
  | fail s' e => rfl

end Pass
end TransportStream
