import TransportStream.Proofs.Filter.Output
import TransportStream.Proofs.Pat.Announced

/-!
# The filter on the packets of the association table

Packets of other identifiers pass the filter one by one, so that what happens to
the packets of the association table depends on these packets alone.  This
module reads the filter off them: a run is lengthened while its section is
unfinished, and then let go as a whole.
-/

namespace TransportStream

namespace Filter

/-- What is written of a run whose turn has come: its reduction, or the run
itself. -/
def letGo (pmtPids : PidSet) (held : List Packet) : List Packet :=
  (Pat.reduce? pmtPids held).value.getD held

theorem written_emitReduced (pmtPids : PidSet) (held : List Packet) :
    written (emitReduced pmtPids held).2 = letGo pmtPids held := by
  unfold emitReduced letGo
  cases (Pat.reduce? pmtPids held) with
  | mk reduced? log =>
      cases reduced? with
      | none => simp
      | some reduced => simp

theorem letGo_of_complete {pmtPids : PidSet} {first : Packet}
    {later : List Packet} {start stop : Nat} (hstart : first.unitStart = true)
    (hspan : Pat.spanOf (first :: later) = .complete start stop) :
    letGo pmtPids (first :: later) =
      (Pat.reduceSpan pmtPids (first :: later) start stop).value := by
  unfold letGo Pat.reduce?
  dsimp only
  rw [hstart, hspan]
  rfl

theorem letGo_of_later {pmtPids : PidSet} {first : Packet} {later : List Packet}
    (hstart : first.unitStart = false) :
    letGo pmtPids (first :: later) = first :: later := by
  unfold letGo Pat.reduce?
  dsimp only
  rw [hstart]
  rfl

theorem letGo_of_not_complete {pmtPids : PidSet} {held : List Packet}
    (hspan : forall start stop, Pat.spanOf held ≠ .complete start stop) :
    letGo pmtPids held = held := by
  cases held with
  | nil => rfl
  | cons first later =>
      cases hstart : first.unitStart with
      | false => exact letGo_of_later hstart
      | true =>
          unfold letGo Pat.reduce?
          dsimp only
          rw [hstart]
          cases hcase : Pat.spanOf (first :: later) with
          | complete start stop => exact absurd hcase (hspan start stop)
          | unfinished => rfl
          | invalid => rfl

theorem step_of_pat {d : Discovery} {p : Packet} (hp : p.pid = patPid)
    (s : State) :
    step d s p =
      (⟨(stepPat d.pmtPids s.held p).1, s.packetsRead + 1,
        s.patsReduced + (stepPat d.pmtPids s.held p).2.1⟩,
          (stepPat d.pmtPids s.held p).2.2) := by
  rw [step, if_pos hp]

theorem outputFrom_cons_of_other {d : Discovery} {p : Packet}
    (hp : p.pid ≠ patPid) (s : State) (packets : List Packet) :
    outputFrom d s (p :: packets) =
      (if d.keep.contains p.pid then [p] else []) ++
        outputFrom d ⟨s.held, s.packetsRead + 1, s.patsReduced⟩ packets := by
  rw [outputFrom_cons, step, if_neg hp]
  by_cases hkeep : d.keep.contains p.pid = true
  · rw [if_pos hkeep, if_pos hkeep]
    rfl
  · rw [if_neg hkeep, if_neg hkeep]
    rfl

variable {pmtPids : PidSet} {held : List Packet} {p : Packet}

theorem stepPat_of_unfinished (haccepts : accepts held p = true)
    (hspan : Pat.spanOf (held ++ [p]) = .unfinished) :
    stepPat pmtPids held p = (held ++ [p], 0, []) := by
  rw [stepPat, if_pos haccepts, settle, hspan]

theorem stepPat_of_complete {start stop : Nat}
    (haccepts : accepts held p = true)
    (hspan : Pat.spanOf (held ++ [p]) = .complete start stop) :
    stepPat pmtPids held p = ([], emitReduced pmtPids (held ++ [p])) := by
  rw [stepPat, if_pos haccepts, settle, hspan]

theorem stepPat_of_invalid (haccepts : accepts held p = true)
    (hspan : Pat.spanOf (held ++ [p]) = .invalid) :
    stepPat pmtPids held p = ([], 0, release (held ++ [p])) := by
  rw [stepPat, if_pos haccepts, settle, hspan]

def patOutput (pmtPids : PidSet) (held : List Packet) :
    List Packet -> List Packet
  | [] => held
  | p :: packets =>
      written (stepPat pmtPids held p).2.2 ++
        patOutput pmtPids (stepPat pmtPids held p).1 packets

@[simp] theorem patOutput_nil (pmtPids : PidSet) (held : List Packet) :
    patOutput pmtPids held [] = held := rfl

theorem patOutput_cons_of_unfinished (haccepts : accepts held p = true)
    (hspan : Pat.spanOf (held ++ [p]) = .unfinished) (packets : List Packet) :
    patOutput pmtPids held (p :: packets) =
      patOutput pmtPids (held ++ [p]) packets := by
  rw [patOutput, stepPat_of_unfinished haccepts hspan]
  rfl

theorem patOutput_cons_of_settled (haccepts : accepts held p = true)
    (hspan : Pat.spanOf (held ++ [p]) ≠ .unfinished) (packets : List Packet) :
    patOutput pmtPids held (p :: packets) =
      letGo pmtPids (held ++ [p]) ++ patOutput pmtPids [] packets := by
  cases hcase : Pat.spanOf (held ++ [p]) with
  | unfinished => exact absurd hcase hspan
  | complete start stop =>
      rw [patOutput, stepPat_of_complete haccepts hcase, ← written_emitReduced]
  | invalid =>
      rw [patOutput, stepPat_of_invalid haccepts hcase, written_release,
        letGo_of_not_complete (by intro start stop h; rw [hcase] at h; cases h)]

theorem patOutput_cons_of_opensRun (haccepts : accepts held p = false)
    (hopens : opensRun p = true) (packets : List Packet) :
    patOutput pmtPids held (p :: packets) =
      held ++ patOutput pmtPids [p] packets := by
  rw [patOutput, stepPat, if_neg (by simp [haccepts]), startAfresh,
    if_pos hopens]
  simp

theorem patOutput_cons_of_alone (haccepts : accepts held p = false)
    (hopens : opensRun p = false) (packets : List Packet) :
    patOutput pmtPids held (p :: packets) =
      held ++ (letGo pmtPids [p] ++ patOutput pmtPids [] packets) := by
  rw [patOutput, stepPat, if_neg (by simp [haccepts]), startAfresh,
    if_neg (by simp [hopens])]
  simp [written_emitReduced]

end Filter
end TransportStream
