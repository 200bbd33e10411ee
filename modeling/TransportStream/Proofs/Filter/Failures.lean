import TransportStream.Proofs.Filter.Conservation
import TransportStream.Proofs.Pass.Reads
import TransportStream.Proofs.Sink.Collection

/-!
# A filter that fails

A source may fail in the middle of a stream, and a sink with every offer and
when it is flushed.  Packets are written in the order of the output, so that
what has arrived by then is always a front of it.  A run that is held back when
the source fails is not written any more.
-/

namespace TransportStream
namespace Filter

variable {ρ κ : Type} [FiniteSource ρ] [Sink κ]

theorem collects_perform (out : Output κ) (actions : List Action) :
    Sink.Collects out.sink (packetBytes (written actions))
      (perform out actions).value.1 (perform out actions).value.2.sink := by
  induction actions generalizing out with
  | nil => exact .nothing out.sink
  | cons action actions ih =>
      cases action with
      | note record =>
          rw [perform, Logged.value_bind]
          exact ih out
      | write p =>
          have hwrite := Sink.collects_writeAll out.sink p.bytes
          rw [perform, written, packetBytes_cons]
          cases hresult : Sink.writeAll out.sink p.bytes with
          | mk failure? k =>
              rw [hresult] at hwrite
              cases failure? with
              | none => exact hwrite.append (ih ⟨k, out.packetsWritten + 1⟩)
              | some failure => exact hwrite.failed _

/-- How a pass of the filter over some packets ends. -/
structure RunsInto (d : Discovery) (s : State × Output κ)
    (packets : List Packet) (e : Error) (failure? : Option IoFailure)
    (pass : Pass ρ (State × Output κ)) : Prop where
  collects :
    Sink.Collects s.2.sink (packetBytes (written (run d s.1 packets).2))
    failure? pass.state.2.sink
  failed : forall failure, failure? = some failure ->
    pass.ending = .failed (.io failure)
  ended : failure? = none ->
    pass.ending = .ofError e ∧ pass.state.1 = (run d s.1 packets).1

theorem exists_runsInto {d : Discovery} {r r1 r2 : ρ} {packets : List Packet}
    {e : Error} (hreads : Reader.Reads r packets r1)
    (hend : (Reader.readPacket r1).value = (.error e, r2))
    (s : State × Output κ) (log : Log) :
    exists failure?,
      RunsInto d s packets e failure?
      (Pass.run (stepInto d) r s log).value := by
  refine Pass.reads_induction
    (motive := fun packets s pass => exists failure?,
      RunsInto d s packets e failure? pass)
    ?_ ?_ ?_ ?_ hreads hend s log
  · intro s r
    refine ⟨none, .nothing s.2.sink, ?_, fun _ => ⟨rfl, rfl⟩⟩
    intro failure hfailure
    cases hfailure
  · intro p packets s s' pass hstep ih
    have hperform := collects_perform s.2 (step d s.1 p).2
    rcases ih with ⟨failure?, hcollects, hfailed, hended⟩
    simp only [stepInto, Logged.value_bind] at hstep
    split at hstep
    · rename_i hnone
      cases hstep
      rw [hnone] at hperform
      refine ⟨failure?, ?_, hfailed, hended⟩
      rw [run_cons, written_append, packetBytes_append]
      exact hperform.append hcollects
    · cases hstep
  · intro p packets s s' r hstep
    simp only [stepInto, Logged.value_bind] at hstep
    split at hstep
    · cases hstep
    · cases hstep
  · intro p packets s s' e' r hstep
    have hperform := collects_perform s.2 (step d s.1 p).2
    simp only [stepInto, Logged.value_bind] at hstep
    split at hstep
    · cases hstep
    · rename_i failure hsome
      cases hstep
      rw [hsome] at hperform
      refine ⟨some failure, ?_, ?_, ?_⟩
      · rw [run_cons, written_append, packetBytes_append]
        exact hperform.failed _
      · intro failure' hfailure
        cases hfailure
        rfl
      · intro hnone
        cases hnone

theorem filter_of_broken {d : Discovery} {r r1 r2 : ρ} {packets : List Packet}
    {e : Error} (hreads : Reader.Reads r packets r1)
    (hend : (Reader.readPacket r1).value = (.error e, r2))
    (he : e ≠ .endOfStream) (k : κ) :
    exists failure? k',
      (filter d r k).value = (.error (failure?.elim e .io), k') ∧
      Sink.Collects k (packetBytes (written (run d .initial packets).2))
        failure? k' := by
  rcases exists_runsInto (d := d) hreads hend (.initial, ⟨k, 0⟩) #[] with
    ⟨failure?, hcollects, hfailed, hended⟩
  refine ⟨failure?, _, ?_, hcollects⟩
  rw [filter, Logged.value_bind, Pass.start]
  cases failure? with
  | none =>
      rw [(hended rfl).left, Ending.ofError_of_ne he]
      rfl
  | some failure =>
      rw [hfailed failure rfl]
      rfl

/-- What the filter returns once all packets are taken, and the sink that it
leaves. -/
inductive Closes (k : κ) :
    Option IoFailure -> Except Error Stats × κ -> Prop where
  | notWritten (failure : IoFailure) :
    Closes k (some failure) (.error (.io failure), k)
  | notFlushed {k' : κ} {failure : IoFailure}
    (h : Sink.flush k = (some failure, k')) :
      Closes k none (.error (.io failure), k')
  | flushed {k' : κ} (h : Sink.flush k = (none, k')) (stats : Stats) :
      Closes k none (.ok stats, k')

theorem closes_close (s : State × Output κ) :
    exists failure? k,
      Sink.Collects s.2.sink (packetBytes s.1.held) failure? k ∧
      Closes k failure? (close s).value := by
  have hperform := collects_perform s.2 (finish s.1)
  rw [finish, written_release] at hperform
  refine ⟨_, _, hperform, ?_⟩
  simp only [close, Logged.value_bind]
  cases hresult : (perform s.2 (finish s.1)).value with
  | mk failure? out =>
      rw [finish] at hresult
      rw [hresult]
      cases failure? with
      | some failure => exact .notWritten failure
      | none =>
          cases hflush : Sink.flush out.sink with
          | mk failure? k' =>
              cases failure? with
              | some failure => exact .notFlushed hflush
              | none => exact .flushed hflush _

theorem filter_of_ended {d : Discovery} {r r1 r2 : ρ} {packets : List Packet}
    (hreads : Reader.Reads r packets r1)
    (hend : (Reader.readPacket r1).value = (.error .endOfStream, r2)) (k : κ) :
    exists failure? k',
      Sink.Collects k (packetBytes (output d packets)) failure? k' ∧
      Closes k' failure? (filter d r k).value := by
  rcases exists_runsInto (d := d) hreads hend (.initial, ⟨k, 0⟩) #[] with
    ⟨failure?, hcollects, hfailed, hended⟩
  rw [filter, Logged.value_bind, Pass.start, output, outputFrom, written_append,
    packetBytes_append]
  cases failure? with
  | some failure =>
      refine ⟨some failure, _, hcollects.failed _, ?_⟩
      rw [hfailed failure rfl]
      exact .notWritten failure
  | none =>
      rcases hended rfl with ⟨hending, hstate⟩
      rcases closes_close
        (Pass.run (stepInto d) r (.initial, ⟨k, 0⟩) #[]).value.state with
        ⟨failure?, k', hheld, hcloses⟩
      rw [hstate] at hheld
      refine ⟨failure?, k', ?_, ?_⟩
      · rw [finish, written_release]
        exact hcollects.append hheld
      · rw [hending]
        exact hcloses

/-!
## Against the whole output
-/

def filtered (d : Discovery) (packets : List Packet) : Bytes :=
  Sink.contents (filter d (Feed.ofBytes (packetBytes packets))
    Tray.unlimited).value.2

theorem filtered_eq (d : Discovery) (packets : List Packet) :
    filtered d packets = packetBytes (output d packets) := by
  rcases filter_of_delivers (Feed.delivers_packetBytes packets) (by decide)
    (Tray.acceptsAll (t := .unlimited) rfl rfl) d with ⟨k', hfilter, hcontents⟩
  rw [filtered, hfilter, hcontents]
  rfl

theorem filtered_append (d : Discovery) (packets more : List Packet) :
    packetBytes (written (run d .initial packets).2) <+:
      filtered d (packets ++ more) := by
  rw [filtered_eq, output, outputFrom_append, packetBytes_append]
  exact List.prefix_append _ _

theorem written_append_held (d : Discovery) (packets : List Packet) :
    packetBytes (written (run d .initial packets).2) ++
        packetBytes (run d .initial packets).1.held = filtered d packets := by
  rw [filtered_eq, output, outputFrom, written_append, finish, written_release,
    packetBytes_append]

end Filter

open TransportStream.Filter

variable {ρ κ : Type} [FiniteSource ρ] [Sink κ]

/-- A sink with too little room gets as much of the output as it has room for,
and the filter returns the failure that it fills up with. -/
theorem filter_of_fillsUp {d : Discovery} {r : ρ} {k : κ}
    {packets : List Packet} {tail : Bytes}
    (hr : Delivers r (packetBytes packets ++ tail))
    (htail : tail.length < frameSize) {failure : IoFailure} {room : Nat}
    (hk : Sink.FillsUp failure room k)
    (hroom : room < (filtered d packets).length) :
    exists k', (filter d r k).value = (.error (.io failure), k') ∧
      Sink.contents k' = Sink.contents k ++ (filtered d packets).take room := by
  rcases Reader.reads_of_delivers hr with ⟨r1, hreads, htail'⟩
  rcases Reader.readPacket_of_delivers_short htail' htail with ⟨r2, hend, _⟩
  rcases filter_of_ended (d := d) hreads hend k with
    ⟨failure?, k', hcollects, hcloses⟩
  rw [← filtered_eq] at hcollects
  rcases (hcollects.filling hk).beyond hroom with ⟨rfl, hcontents⟩
  cases hresult : (filter d r k).value with
  | mk result k1 =>
      rw [hresult] at hcloses
      cases hcloses
      exact ⟨k', rfl, hcontents⟩

/-- When the source fails behind some packets, what the sink has got is a front
of the output for these packets and any that might have followed; if the sink is
not at fault, only the run held back is missing of what the packets themselves
give.  When the source does not fail, what the sink has got is a front of the
whole output, and the filter succeeds only if that is all of it and the sink
could be flushed; otherwise it returns the failure of the sink. -/
theorem failing_filter_writes_front (d : Discovery) (r : ρ) (k : κ)
    (packets : List Packet) :
    (forall r1 r2 e, Reader.Reads r packets r1 ->
        (Reader.readPacket r1).value = (.error e, r2) -> e ≠ .endOfStream ->
        exists e' k' bytes, (filter d r k).value = (.error e', k') ∧
          Sink.contents k' = Sink.contents k ++ bytes ∧
          (forall more, bytes <+: filtered d (packets ++ more)) ∧
          (Sink.AcceptsAll k -> e' = e ∧
            bytes ++ packetBytes (Filter.run d .initial packets).1.held =
              filtered d packets)) ∧
      (forall tail, Delivers r (packetBytes packets ++ tail) ->
        tail.length < frameSize ->
        exists result k' bytes, (filter d r k).value = (result, k') ∧
          Sink.contents k' = Sink.contents k ++ bytes ∧
          bytes <+: filtered d packets ∧
          ((exists stats k1, result = .ok stats ∧ bytes = filtered d packets ∧
              Sink.contents k1 = Sink.contents k ++ bytes ∧
              Sink.flush k1 = (none, k')) ∨
            exists failure, result = .error (.io failure)) ∧
          (Sink.AcceptsAll k -> exists stats, result = .ok stats)) := by
  constructor
  · intro r1 r2 e hreads hend he
    rcases filter_of_broken (d := d) hreads hend he k with
      ⟨failure?, k', hfilter, hcollects⟩
    rcases hcollects.front with ⟨bytes, hcontents, hfront, hall⟩
    refine ⟨failure?.elim e .io, k', bytes, hfilter, hcontents, ?_, ?_⟩
    · intro more
      exact hfront.trans (filtered_append d packets more)
    · intro haccepts
      have hnone := (hcollects.willing haccepts).left
      subst hnone
      rw [hall rfl]
      exact ⟨rfl, written_append_held d packets⟩
  · intro tail hr htail
    rcases Reader.reads_of_delivers hr with ⟨r1, hreads, htail'⟩
    rcases Reader.readPacket_of_delivers_short htail' htail with ⟨r2, hend, _⟩
    rcases filter_of_ended (d := d) hreads hend k with
      ⟨failure?, k1, hcollects, hcloses⟩
    rw [← filtered_eq] at hcollects
    rcases hcollects.front with ⟨bytes, hcontents, hfront, hall⟩
    have hflush := Sink.contents_of_flush k1
    cases hresult : (filter d r k).value with
    | mk result k' =>
        rw [hresult] at hcloses
        refine ⟨result, k', bytes, rfl, ?_⟩
        cases hcloses with
        | notWritten failure =>
            refine ⟨hcontents, hfront, .inr ⟨failure, rfl⟩, ?_⟩
            intro haccepts
            cases (hcollects.willing haccepts).left
        | notFlushed hfailed =>
            rw [hfailed] at hflush
            refine ⟨hflush.trans hcontents, hfront, .inr ⟨_, rfl⟩, ?_⟩
            intro haccepts
            have hnone := (hcollects.willing haccepts).right.flush_eq_none
            rw [hfailed] at hnone
            cases hnone
        | flushed hdone stats =>
            rw [hdone] at hflush
            have hbytes := hall rfl
            exact ⟨hflush.trans hcontents, hfront,
              .inl ⟨stats, k1, rfl, hbytes, hcontents, hdone⟩, fun _ =>
                ⟨stats, rfl⟩⟩

/-!
## A lost sync byte and a sink with little room
-/

def openStream : List Packet :=
  [.padded 0x01 0xF0 0x10 [], mixedStart]

def unsyncedStream : Bytes :=
  packetBytes openStream ++ List.replicate frameSize 0x48

def smallTray : Tray :=
  ⟨[], some 192, 100, .fail "no room", none⟩

theorem failing_filter_of_openStream :
    (exists r1 r2, Reader.Reads (Feed.ofBytes unsyncedStream) openStream r1 ∧
        (Reader.readPacket r1).value = (.error (.framing 0x48), r2)) ∧
      (exists k' bytes,
        (filter mapDiscovery (Feed.ofBytes unsyncedStream)
          Tray.unlimited).value = (.error (.framing 0x48), k') ∧
          Sink.contents k' = Sink.contents Tray.unlimited ++ bytes ∧
          bytes ++ packetBytes [mixedStart] =
            filtered mapDiscovery openStream) ∧
      Delivers (Feed.ofBytes (packetBytes openStream))
        (packetBytes openStream ++ []) ∧
      ([] : Bytes).length < frameSize ∧
      exists k' bytes,
        (filter mapDiscovery (Feed.ofBytes (packetBytes openStream))
          smallTray).value = (.error (.io (.other "no room")), k') ∧
          Sink.contents k' = Sink.contents smallTray ++ bytes ∧
          bytes = (filtered mapDiscovery openStream).take 192 ∧
          bytes <+: filtered mapDiscovery openStream := by
  have hdelivers : Delivers (Feed.ofBytes unsyncedStream) unsyncedStream :=
    Feed.delivers_ofBytes unsyncedStream
  rcases Reader.reads_of_delivers hdelivers with ⟨r1, hreads, hrest⟩
  rcases Reader.readPacket_ahead hrest with ⟨r2, hend, _⟩
  have hunsynced : Reader.packetAhead (List.replicate frameSize 0x48) =
      .error (.framing 0x48) := by
    have hlength :
        frameSize ≤ (List.replicate frameSize (0x48 : UInt8)).length :=
      Nat.le_of_eq List.length_replicate.symm
    rw [Reader.packetAhead, dif_pos hlength]
    rfl
  rw [hunsynced] at hend
  have hr := Feed.delivers_packetBytes openStream
  have hwilling : Sink.AcceptsAll Tray.unlimited := Tray.acceptsAll rfl rfl
  have hheld : (Filter.run mapDiscovery .initial openStream).1.held =
      [mixedStart] := by
    decide +kernel
  refine ⟨⟨r1, r2, hreads, hend⟩, ?_, hr, by decide, ?_⟩
  · rcases (failing_filter_writes_front mapDiscovery
      (Feed.ofBytes unsyncedStream) Tray.unlimited openStream).left r1 r2
      (.framing 0x48) hreads hend (by decide) with
      ⟨e', k', bytes, hfilter, hcontents, _, hall⟩
    rcases hall hwilling with ⟨rfl, hbytes⟩
    rw [hheld] at hbytes
    exact ⟨k', bytes, hfilter, hcontents, hbytes⟩
  · rcases (failing_filter_writes_front mapDiscovery
      (Feed.ofBytes (packetBytes openStream)) smallTray openStream).right [] hr
      (by decide) with
      ⟨result, k', bytes, hfilter, hcontents, hfront, _⟩
    have hfills : Sink.FillsUp (.other "no room") 192 smallTray :=
      Tray.fillsUp rfl rfl
    have hlength : 192 < (filtered mapDiscovery openStream).length := by
      rw [filtered_eq, length_packetBytes]
      decide +kernel
    rcases filter_of_fillsUp hr (by decide) hfills hlength with
      ⟨k1, hfull, htaken⟩
    cases hfilter.symm.trans hfull
    have hbytes := List.append_cancel_left (hcontents.symm.trans htaken)
    exact ⟨k', bytes, hfull, hcontents, hbytes, hfront⟩

end TransportStream
