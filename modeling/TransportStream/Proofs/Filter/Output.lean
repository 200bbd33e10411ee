import TransportStream.Filter
import TransportStream.Proofs.Pass
import TransportStream.Proofs.Sink.Acceptance

/-!
# The output of the filter

The filter's steps say which packets are written, and in which order.  Over a
source that delivers packets and into a sink that accepts everything, exactly
these packets arrive, and the statistics count them.
-/

namespace TransportStream
namespace Filter

/-!
## Written packets
-/

def written : List Action -> List Packet
  | [] => []
  | .note _ :: actions => written actions
  | .write p :: actions => p :: written actions

@[simp] theorem written_append (actions later : List Action) :
    written (actions ++ later) = written actions ++ written later := by
  induction actions with
  | nil => rfl
  | cons action actions ih =>
      cases action with
      | note record => exact ih
      | write p => exact congrArg (p :: ·) ih

@[simp] theorem written_map_note (log : List Record) :
    written (log.map .note) = [] := by
  induction log with
  | nil => rfl
  | cons record log ih => exact ih

@[simp] theorem written_map_write (packets : List Packet) :
    written (packets.map .write) = packets := by
  induction packets with
  | nil => rfl
  | cons p packets ih => exact congrArg (p :: ·) ih

@[simp] theorem written_release (held : List Packet) :
    written (release held) = held := by
  cases held with
  | nil => rfl
  | cons p held => exact written_map_write (p :: held)

def run (d : Discovery) (s : State) : List Packet -> State × List Action
  | [] => (s, [])
  | p :: packets =>
      let (s', actions) := step d s p
      let (s'', later) := run d s' packets
      (s'', actions ++ later)

theorem run_cons (d : Discovery) (s : State) (p : Packet)
    (packets : List Packet) :
    run d s (p :: packets) =
      ((run d (step d s p).1 packets).1, (step d s p).2 ++
        (run d (step d s p).1 packets).2) := rfl

/-- The packets that the filter writes, those let go at the end included. -/
def outputFrom (d : Discovery) (s : State) (packets : List Packet) :
    List Packet :=
  written ((run d s packets).2 ++ finish (run d s packets).1)

def output (d : Discovery) (packets : List Packet) : List Packet :=
  outputFrom d .initial packets

theorem outputFrom_nil (d : Discovery) (s : State) :
    outputFrom d s [] = s.held := by
  rw [outputFrom, run, List.nil_append, finish, written_release]

theorem outputFrom_cons (d : Discovery) (s : State) (p : Packet)
    (packets : List Packet) :
    outputFrom d s (p :: packets) =
      written (step d s p).2 ++ outputFrom d (step d s p).1 packets := by
  rw [outputFrom, run_cons, List.append_assoc, written_append]
  rfl

theorem outputFrom_append (d : Discovery) (s : State)
    (packets later : List Packet) :
    outputFrom d s (packets ++ later) =
      written (run d s packets).2 ++
        outputFrom d (run d s packets).1 later := by
  induction packets generalizing s with
  | nil => rfl
  | cons p packets ih =>
      rw [List.cons_append, outputFrom_cons, ih, run_cons, written_append,
        List.append_assoc]

theorem packetsRead_step (d : Discovery) (s : State) (p : Packet) :
    (step d s p).1.packetsRead = s.packetsRead + 1 := by
  unfold step
  by_cases hpat : p.pid = patPid
  · rw [if_pos hpat]
  · rw [if_neg hpat]

theorem packetsRead_run (d : Discovery) (s : State) (packets : List Packet) :
    (run d s packets).1.packetsRead = s.packetsRead + packets.length := by
  induction packets generalizing s with
  | nil => rfl
  | cons p packets ih =>
      rw [run_cons, ih, packetsRead_step, List.length_cons]
      lia

/-!
## Carrying out the steps
-/

variable {ρ κ : Type} [FiniteSource ρ] [Sink κ]

theorem perform_of_acceptsAll {k : κ} (h : Sink.AcceptsAll k) (count : Nat)
    (actions : List Action) :
    exists k', (perform ⟨k, count⟩ actions).value =
        (none, ⟨k', count + (written actions).length⟩) ∧
      Sink.AcceptsAll k' ∧
      Sink.contents k' = Sink.contents k ++ packetBytes (written actions) := by
  induction actions generalizing k count with
  | nil => exact ⟨k, rfl, h, (List.append_nil _).symm⟩
  | cons action actions ih =>
      cases action with
      | note record =>
          rcases ih h count with ⟨k', hperform, haccepts, hcontents⟩
          refine ⟨k', ?_, haccepts, hcontents⟩
          rw [perform, Logged.value_bind]
          exact hperform
      | write p =>
          rcases Sink.writeAll_of_acceptsAll h p.bytes with
            ⟨k1, hwrite, haccepts, hcontents⟩
          rcases ih haccepts (count + 1) with
            ⟨k', hperform, haccepts', hcontents'⟩
          refine ⟨k', ?_, haccepts', ?_⟩
          · rw [perform, hwrite]
            simp only [hperform, written, List.length_cons]
            rw [Nat.add_assoc, Nat.add_comm 1]
          · rw [hcontents', hcontents, List.append_assoc]
            rfl

def nextInto (d : Discovery) (s : State × Output κ) (p : Packet) :
    State × Output κ :=
  ((step d s.1 p).1, (perform s.2 (step d s.1 p).2).value.2)

theorem value_stepInto {d : Discovery} {s : State × Output κ}
    (h : Sink.AcceptsAll s.2.sink) (p : Packet) :
    (stepInto d s p).value = .more (nextInto d s p) ∧
      Sink.AcceptsAll (nextInto d s p).2.sink := by
  rcases perform_of_acceptsAll h s.2.packetsWritten (step d s.1 p).2 with
    ⟨k, hperform, haccepts, _⟩
  constructor
  · simp only [stepInto, Logged.value_bind, hperform, Logged.value_pure,
      nextInto]
  · simp only [nextInto, hperform]
    exact haccepts

theorem foldl_nextInto {k : κ} (h : Sink.AcceptsAll k) (d : Discovery)
    (s : State) (count : Nat) (packets : List Packet) :
    exists k', packets.foldl (nextInto d) (s, ⟨k, count⟩) =
        ((run d s packets).1,
          ⟨k', count + (written (run d s packets).2).length⟩) ∧
      Sink.AcceptsAll k' ∧
      Sink.contents k' =
        Sink.contents k ++ packetBytes (written (run d s packets).2) := by
  induction packets generalizing s k count with
  | nil => exact ⟨k, rfl, h, (List.append_nil _).symm⟩
  | cons p packets ih =>
      rcases perform_of_acceptsAll h count (step d s p).2 with
        ⟨k1, hperform, haccepts, hcontents⟩
      rcases ih haccepts (step d s p).1
        (count + (written (step d s p).2).length) with
        ⟨k', hfold, haccepts', hcontents'⟩
      refine ⟨k', ?_, haccepts', ?_⟩
      · rw [List.foldl_cons, nextInto, hperform, hfold, run_cons,
          written_append, List.length_append, Nat.add_assoc]
      · rw [hcontents', hcontents, run_cons, written_append, packetBytes_append,
          List.append_assoc]

end Filter

variable {ρ κ : Type} [FiniteSource ρ] [Sink κ]

/-- Over a source that delivers packets, and less than a frame behind them, the
filter succeeds, and a sink that accepts everything holds its output. -/
theorem filter_of_delivers {r : ρ} {k : κ} {packets : List Packet}
    {tail : Bytes} (hr : Delivers r (packetBytes packets ++ tail))
    (htail : tail.length < frameSize) (hk : Sink.AcceptsAll k) (d : Discovery) :
    exists k', (filter d r k).value =
        (.ok ⟨packets.length, (Filter.output d packets).length,
          (Filter.run d .initial packets).1.patsReduced⟩, k') ∧
      Sink.contents k' =
        Sink.contents k ++ packetBytes (Filter.output d packets) := by
  rcases Pass.value_run_of_delivers
      (fun s : Filter.State × Filter.Output κ => Sink.AcceptsAll s.2.sink)
      (Filter.nextInto d) (fun s p hs => Filter.value_stepInto hs p) htail hr
      (.initial, ⟨k, 0⟩) hk #[] with
    ⟨r', hrun⟩
  rcases Filter.foldl_nextInto hk d .initial 0 packets with
    ⟨k1, hfold, haccepts1, hcontents1⟩
  rcases Filter.perform_of_acceptsAll haccepts1
      (0 + (Filter.written (Filter.run d .initial packets).2).length)
      (Filter.finish (Filter.run d .initial packets).1) with
    ⟨k2, hperform, haccepts2, hcontents2⟩
  have hread : (Filter.run d .initial packets).1.packetsRead =
      packets.length := by
    rw [Filter.packetsRead_run]
    exact Nat.zero_add _
  have hflush := haccepts2.flush_eq_none
  refine ⟨(Sink.flush k2).2, ?_, ?_⟩
  · rw [filter, Logged.value_bind, Pass.start, hrun, hfold]
    simp only [Filter.close, Logged.value_bind, hperform]
    cases hpair : Sink.flush k2 with
    | mk failure? k3 =>
        rw [hpair] at hflush
        subst hflush
        simp only [Logged.value_pure, hread, Filter.output, Filter.outputFrom,
          Filter.written_append, List.length_append, Nat.zero_add]
  · rw [Sink.contents_of_flush, hcontents2, hcontents1, List.append_assoc,
      ← packetBytes_append, ← Filter.written_append]
    rfl

end TransportStream
