import TransportStream.Proofs.Filter.ReducedRuns

/-!
# Filtering a filtered stream

Of a stream that it has written, the filter writes every packet again.  Only the
order may change: while a run is held back that will never be complete, packets
of other identifiers overtake it.  This happens exactly where such a packet
directly follows the run.
-/

namespace TransportStream
namespace Filter

/-!
## Packets that overtake
-/

/-- Association packets that are held back: a start packet without error, and
consecutive packets with which its section is still unfinished. -/
structure IsOpenRun (first : Packet) (later : List Packet) : Prop where
  unitStart : first.unitStart = true
  intact : first.transportError = false
  consecutive : Consecutive first.counter later
  unfinished : Pat.spanOf (first :: later) = .unfinished
  pid : forall p, p ∈ first :: later -> p.pid = patPid

/-- Somewhere a packet of another identifier directly follows an open run. -/
def Overtakes (packets : List Packet) : Prop :=
  exists (before : List Packet) (first : Packet) (later : List Packet)
      (other : Packet) (after : List Packet),
    packets = before ++ (first :: later ++ other :: after) ∧
      IsOpenRun first later ∧ other.pid ≠ patPid

theorem overtakes_append {packets : List Packet} (h : Overtakes packets)
    (front : List Packet) :
    Overtakes (front ++ packets) := by
  rcases h with ⟨before, first, later, other, after, rfl, hopen, hother⟩
  refine ⟨front ++ before, first, later, other, after, ?_, hopen, hother⟩
  rw [List.append_assoc]

def Held (held : List Packet) : Prop :=
  held = [] ∨ exists first later, held = first :: later ∧ IsOpenRun first later

variable {d : Discovery} {s : State} {first p : Packet}
  {held later packets : List Packet}

theorem opensRun_iff :
    opensRun p = true ↔
      p.unitStart = true ∧ p.transportError = false ∧
        Pat.spanOf [p] = .unfinished := by
  simp [opensRun, and_assoc]

theorem isOpenRun_append (h : IsOpenRun first later) (hp : p.pid = patPid)
    (haccepts : accepts (first :: later) p = true)
    (hspan : Pat.spanOf (first :: (later ++ [p])) = .unfinished) :
    IsOpenRun first (later ++ [p]) := by
  refine ⟨h.unitStart, h.intact, ?_, hspan, ?_⟩
  · exact consecutive_append_iff.mpr
      ⟨h.consecutive, accepts_cons_iff.mp haccepts⟩
  · intro q hq
    rw [← List.cons_append] at hq
    rcases List.mem_append.mp hq with hmem | hmem
    · exact h.pid q hmem
    · rw [List.mem_singleton.mp hmem]
      exact hp

theorem isOpenRun_front {more : List Packet}
    (h : IsOpenRun first (later ++ p :: more)) :
    accepts (first :: later) p = true ∧ Pat.spanOf (first :: (later ++ [p])) =
      .unfinished := by
  rw [List.append_cons] at h
  constructor
  · have hfollows := (consecutive_append_iff.mp h.consecutive).left
    exact accepts_cons_iff.mpr (consecutive_append_iff.mp hfollows).right
  · have hfront :=
      Pat.spanOf_take_of_unfinished h.unfinished (later ++ [p]).length
    rw [List.take_left] at hfront
    exact hfront

theorem held_stepPat (h : Held held) (hp : p.pid = patPid) (pmtPids : PidSet) :
    Held (stepPat pmtPids held p).1 ∧
      exists front, held ++ [p] = front ++ (stepPat pmtPids held p).1 := by
  rw [stepPat]
  cases haccepts : accepts held p with
  | true =>
      rw [if_pos rfl, settle]
      cases hspan : Pat.spanOf (held ++ [p]) with
      | unfinished =>
          refine ⟨.inr ?_, [], rfl⟩
          rcases h with rfl | ⟨first, later, rfl, hopen⟩
          · cases haccepts
          · exact ⟨first, later ++
              [p], rfl, isOpenRun_append hopen hp haccepts hspan⟩
      | complete start stop =>
          exact ⟨.inl rfl, held ++ [p], (List.append_nil _).symm⟩
      | invalid => exact ⟨.inl rfl, held ++ [p], (List.append_nil _).symm⟩
  | false =>
      rw [if_neg Bool.false_ne_true, startAfresh]
      cases hopens : opensRun p with
      | true =>
          rcases opensRun_iff.mp hopens with ⟨hstart, herror, hspan⟩
          refine ⟨.inr ⟨p, [], rfl, hstart, herror, trivial, hspan, ?_⟩,
            held, rfl⟩
          intro q hq
          rw [List.mem_singleton.mp hq]
          exact hp
      | false => exact ⟨.inl rfl, held ++ [p], (List.append_nil _).symm⟩

/-!
## Where nothing overtakes
-/

def isPat (p : Packet) : Bool :=
  p.pid = patPid

theorem map_isPat_of_forall₂
    (h : List.Forall₂ Packet.SameOutsidePayload packets later) :
    later.map isPat = packets.map isPat := by
  induction h with
  | nil => rfl
  | cons hp _ ih =>
      rw [List.map_cons, List.map_cons, ih, isPat, isPat,
        Packet.pid_of_sameOutsidePayload hp]

theorem map_isPat_outputFrom (hheld : Held s.held)
    (hkeep : forall p, p ∈ packets -> p.pid ≠ patPid ->
      d.keep.contains p.pid = true)
    (hnone : ¬ Overtakes (s.held ++ packets)) :
    (outputFrom d s packets).map isPat = (s.held ++ packets).map isPat := by
  induction packets generalizing s with
  | nil => rw [outputFrom_nil, List.append_nil]
  | cons p packets ih =>
      have hlater : forall q, q ∈ packets -> q.pid ≠ patPid ->
          d.keep.contains q.pid = true := by
        intro q hq
        exact hkeep q (List.mem_cons_of_mem p hq)
      by_cases hp : p.pid = patPid
      · rcases held_stepPat hheld hp d.pmtPids with ⟨hheld', front, hfront⟩
        have hsame := map_isPat_of_forall₂ (forall₂_stepPat d.pmtPids s.held p)
        have hread : (s.held ++ p :: packets).map isPat =
            (s.held ++ [p]).map isPat ++ packets.map isPat := by
          rw [List.append_cons, List.map_append]
        rw [outputFrom_cons, step_of_pat hp, List.map_append, ih]
        · rw [hread, ← hsame, List.map_append, List.map_append,
            List.append_assoc]
        · exact hheld'
        · exact hlater
        · intro hovertakes
          apply hnone
          rw [List.append_cons, hfront, List.append_assoc]
          exact overtakes_append hovertakes front
      · -- The packet would overtake a run that is held.
        have hempty : s.held = [] := by
          rcases hheld with hnil | ⟨first, later, hrun, hopen⟩
          · exact hnil
          · apply absurd _ hnone
            exact ⟨[], first, later, p, packets, by rw [hrun]; rfl, hopen, hp⟩
        rw [outputFrom_cons_of_other hp, if_pos (hkeep p List.mem_cons_self hp),
          List.map_append, ih]
        · rw [hempty]
          rfl
        · exact hheld
        · exact hlater
        · intro hovertakes
          apply hnone
          rw [hempty] at hovertakes ⊢
          exact overtakes_append hovertakes [p]

theorem eq_of_filter_of_map {α : Type} {f : α -> Bool} {l l' : List α}
    (hmap : l.map f = l'.map f) (htrue : l.filter f = l'.filter f)
    (hfalse : l.filter (!f ·) = l'.filter (!f ·)) : l = l' := by
  induction l generalizing l' with
  | nil =>
      cases l' with
      | nil => rfl
      | cons b l' => cases hmap
  | cons a l ih =>
      cases l' with
      | nil => cases hmap
      | cons b l' =>
          rw [List.map_cons, List.map_cons, List.cons.injEq] at hmap
          rcases hmap with ⟨hkind, hrest⟩
          cases ha : f a with
          | true =>
              rw [ha] at hkind
              simp only [List.filter_cons, ha, ← hkind, if_true,
                List.cons.injEq] at htrue
              simp only [List.filter_cons, ha, ← hkind, Bool.not_true,
                Bool.false_eq_true, if_false] at hfalse
              rw [htrue.left, ih hrest htrue.right hfalse]
          | false =>
              rw [ha] at hkind
              simp only [List.filter_cons, ha, ← hkind, Bool.not_false, if_true,
                List.cons.injEq] at hfalse
              simp only [List.filter_cons, ha, ← hkind, Bool.false_eq_true,
                if_false] at htrue
              rw [hfalse.left, ih hrest htrue hfalse.right]

theorem output_of_not_overtakes
    (hkeep : forall p, p ∈ packets -> p.pid ≠ patPid ->
      d.keep.contains p.pid = true)
    (hpat : patPackets (output d packets) = patPackets packets)
    (hothers : (output d packets).filter (·.pid ≠ patPid) =
      packets.filter (·.pid ≠ patPid))
    (hnone : ¬ Overtakes packets) : output d packets = packets := by
  have hmap : (output d packets).map isPat = packets.map isPat :=
    map_isPat_outputFrom (.inl rfl) hkeep hnone
  apply eq_of_filter_of_map hmap hpat
  simpa [isPat] using hothers

/-!
## Where something overtakes
-/

theorem held_run_of_openRun {more : List Packet}
    (h : IsOpenRun first (later ++ more)) (hheld : s.held = first :: later) :
    (run d s more).1.held = first :: (later ++ more) := by
  induction more generalizing s later with
  | nil =>
      rw [List.append_nil]
      exact hheld
  | cons p more ih =>
      rcases isOpenRun_front h with ⟨haccepts, hspan⟩
      have hp : p.pid = patPid := by
        apply h.pid
        simp
      have hstep : (step d s p).1.held = first :: (later ++ [p]) := by
        rw [step_of_pat hp, stepPat, hheld, if_pos haccepts, settle,
          List.cons_append, hspan]
      rw [List.append_cons] at h ⊢
      rw [run_cons, ih h hstep]

theorem held_run_append_of_openRun (h : IsOpenRun first later)
    (before : List Packet) :
    (run d s (before ++ first :: later)).1.held = first :: later := by
  induction before generalizing s with
  | nil =>
      have hopens : opensRun first = true := by
        have hspan := Pat.spanOf_take_of_unfinished h.unfinished 0
        exact opensRun_iff.mpr ⟨h.unitStart, h.intact, hspan⟩
      have hstep : (step d s first).1.held = [first] := by
        rw [step_of_pat (h.pid first List.mem_cons_self), stepPat,
          accepts_of_start h.unitStart, if_neg Bool.false_ne_true, startAfresh,
          if_pos hopens]
      rw [List.nil_append, run_cons]
      exact held_run_of_openRun h hstep
  | cons p before ih =>
      rw [List.cons_append, run_cons]
      exact ih

theorem length_written_run
    (hkeep : forall p, p ∈ packets -> p.pid ≠ patPid ->
      d.keep.contains p.pid = true) :
    (written (run d s packets).2).length + (run d s packets).1.held.length =
      s.held.length + packets.length := by
  induction packets generalizing s with
  | nil => exact Nat.zero_add _
  | cons p packets ih =>
      have hlater : forall q, q ∈ packets -> q.pid ≠ patPid ->
          d.keep.contains q.pid = true := by
        intro q hq
        exact hkeep q (List.mem_cons_of_mem p hq)
      have hstep :
          (written (step d s p).2).length + (step d s p).1.held.length =
          s.held.length + 1 := by
        by_cases hp : p.pid = patPid
        · have hlength := (forall₂_stepPat d.pmtPids s.held p).length_eq
          rw [List.length_append, List.length_append] at hlength
          rw [step_of_pat hp]
          exact hlength.symm
        · rw [step, if_neg hp, if_pos (hkeep p List.mem_cons_self hp)]
          exact Nat.add_comm _ _
      have hrest := ih hlater (s := (step d s p).1)
      rw [run_cons, written_append, List.length_append, List.length_cons]
      dsimp only
      lia

theorem output_of_overtakes
    (hkeep : forall p, p ∈ packets -> p.pid ≠ patPid ->
      d.keep.contains p.pid = true)
    (h : Overtakes packets) : output d packets ≠ packets := by
  rcases h with ⟨before, first, later, other, after, hpackets, hopen, hother⟩
  have hfront : forall p, p ∈ before ++ first :: later -> p.pid ≠ patPid ->
      d.keep.contains p.pid = true := by
    intro p hp
    apply hkeep
    rw [hpackets, ← List.append_assoc]
    exact List.mem_append_left _ hp
  have hkept : d.keep.contains other.pid = true := by
    apply hkeep other _ hother
    rw [hpackets]
    simp
  have hcount : (written (run d .initial (before ++ first :: later)).2).length =
      before.length := by
    have hlength := length_written_run (s := .initial) hfront
    have hempty : State.initial.held.length = 0 := rfl
    rw [held_run_append_of_openRun hopen before, List.length_append] at hlength
    lia
  -- The other packet is written where the run was read.
  intro heq
  rw [output, hpackets, ← List.append_assoc, outputFrom_append,
    outputFrom_cons_of_other hother, if_pos hkept, List.append_assoc before]
    at heq
  have hsame := (List.append_inj heq hcount).right
  rw [List.singleton_append, List.cons_append, List.cons.injEq] at hsame
  apply hother
  rw [hsame.left]
  exact hopen.pid first List.mem_cons_self

/-!
## What was written once
-/

theorem keep_of_mem_output (d : Discovery) (packets : List Packet) {p : Packet}
    (hp : p ∈ output d packets) (hother : p.pid ≠ patPid) :
    d.keep.contains p.pid = true := by
  have hmem : p ∈ (output d packets).filter (·.pid ≠ patPid) :=
    List.mem_filter.mpr ⟨hp, decide_eq_true hother⟩
  rw [otherPackets_output] at hmem
  exact (List.mem_filter.mp hmem).right

theorem patPackets_output_output (d : Discovery) (packets : List Packet) :
    patPackets (output d (output d packets)) =
      patPackets (output d packets) := by
  rw [patPackets_output, patPackets_output]
  exact isStable d.pmtPids (patPackets packets)

theorem otherPackets_output_output (d : Discovery) (packets : List Packet) :
    (output d (output d packets)).filter (·.pid ≠ patPid) =
      (output d packets).filter (·.pid ≠ patPid) := by
  rw [otherPackets_output, List.filter_eq_self]
  intro p hp
  rcases List.mem_filter.mp hp with ⟨hmem, hother⟩
  exact keep_of_mem_output d packets hmem (of_decide_eq_true hother)

theorem length_output_output (d : Discovery) (packets : List Packet) :
    (output d (output d packets)).length = (output d packets).length := by
  have hkeep := fun p => keep_of_mem_output d packets (p := p)
  have hlength := length_written_run (s := .initial) hkeep
  rw [output, outputFrom, finish, written_append, written_release,
    List.length_append, hlength]
  exact Nat.zero_add _

theorem output_output_iff (d : Discovery) (packets : List Packet) :
    output d (output d packets) = output d packets ↔
      ¬ Overtakes (output d packets) := by
  have hkeep := fun p => keep_of_mem_output d packets (p := p)
  constructor
  · intro hsame hovertakes
    exact output_of_overtakes hkeep hovertakes hsame
  · intro hnone
    exact output_of_not_overtakes hkeep (patPackets_output_output d packets)
      (otherPackets_output_output d packets) hnone

end Filter

open TransportStream.Filter

variable {ρ κ : Type} [FiniteSource ρ] [Sink κ]

/-- What the filter has written it accepts again, and writes as many packets:
those of the association table as they were and in order, and the others as they
were and in order.  Between the two the order stays, so that all bytes are the
same, exactly if nothing overtakes an open run. -/
theorem filter_again_iff {r : ρ} {k : κ} {packets : List Packet} {tail : Bytes}
    (hr : Delivers r (packetBytes packets ++ tail))
    (htail : tail.length < frameSize) (hk : Sink.AcceptsAll k) (d : Discovery) :
    exists (stats : Stats) (k' : κ) (out : List Packet),
      (filter d r k).value = (.ok stats, k') ∧
        Sink.contents k' = Sink.contents k ++ packetBytes out ∧
        forall {ρ' κ' : Type} [FiniteSource ρ'] [Sink κ'] {r' : ρ'} {k1 : κ'},
          Delivers r' (packetBytes out) -> Sink.AcceptsAll k1 ->
            exists (stats' : Stats) (k1' : κ') (again : List Packet),
              (filter d r' k1).value = (.ok stats', k1') ∧
                Sink.contents k1' = Sink.contents k1 ++ packetBytes again ∧
                stats'.packetsRead = (packetBytes out).length / frameSize ∧
                stats'.packetsWritten = (packetBytes out).length / frameSize ∧
                patPackets again = patPackets out ∧
                again.filter (·.pid ≠ patPid) = out.filter (·.pid ≠ patPid) ∧
                (packetBytes again = packetBytes out ↔ ¬ Overtakes out) := by
  rcases filter_of_delivers hr htail hk d with ⟨k', hfilter, hcontents⟩
  refine ⟨_, k', output d packets, hfilter, hcontents, ?_⟩
  intro ρ' κ' _ _ r' k1 hr' hk1
  rw [← List.append_nil (packetBytes (output d packets))] at hr'
  rcases filter_of_delivers hr' (by decide) hk1 d with
    ⟨k1', hfilter', hcontents'⟩
  have hcount : (packetBytes (output d packets)).length / frameSize =
      (output d packets).length := by
    rw [length_packetBytes, Nat.mul_div_cancel_left _ (by decide)]
  refine ⟨_, k1', output d (output d packets), hfilter', hcontents',
    hcount.symm, ?_, patPackets_output_output d packets,
    otherPackets_output_output d packets, ?_⟩
  · rw [hcount]
    exact length_output_output d packets
  · rw [← output_output_iff]
    constructor
    · exact eq_of_packetBytes
    · exact congrArg packetBytes

/-!
## Streams that are filtered twice
-/

def keptPacket : Packet :=
  .padded 0x01 0xF0 0x10 []

def abandonedRun : List Packet :=
  [mixedStart, mixedStart, keptPacket]

/-- The kept packet overtakes the second run, and when the output is filtered
once more, also the first. -/
theorem kept_packet_overtakes_again :
    exists k' k1' : Tray,
      (filter mapDiscovery (Feed.ofBytes (packetBytes abandonedRun))
        Tray.unlimited).value = (.ok ⟨3, 3, 0⟩, k') ∧
        Sink.contents k' = packetBytes [mixedStart, keptPacket, mixedStart] ∧
        (filter mapDiscovery (Feed.ofBytes (Sink.contents k'))
          Tray.unlimited).value = (.ok ⟨3, 3, 0⟩, k1') ∧
        Sink.contents k1' = packetBytes [keptPacket, mixedStart, mixedStart] ∧
        Sink.contents k1' ≠ Sink.contents k' := by
  have hk : Sink.AcceptsAll Tray.unlimited := Tray.acceptsAll rfl rfl
  have hempty : Sink.contents Tray.unlimited = [] := rfl
  obtain ⟨k', hfilter, hcontents⟩ :=
    filter_of_delivers (Feed.delivers_packetBytes abandonedRun) (by decide) hk
      mapDiscovery
  have houtput : output mapDiscovery abandonedRun =
      [mixedStart, keptPacket, mixedStart] := by
    decide +kernel
  have hreduced :
      (run mapDiscovery .initial abandonedRun).1.patsReduced = 0 := by
    decide +kernel
  rw [houtput, hreduced] at hfilter
  rw [houtput, hempty, List.nil_append] at hcontents
  obtain ⟨k1', hfilter', hcontents'⟩ := filter_of_delivers
    (Feed.delivers_packetBytes [mixedStart, keptPacket, mixedStart])
      (by decide) hk mapDiscovery
  have houtput' : output mapDiscovery [mixedStart, keptPacket, mixedStart] =
      [keptPacket, mixedStart, mixedStart] := by
    decide +kernel
  have hreduced' : (run mapDiscovery .initial
      [mixedStart, keptPacket, mixedStart]).1.patsReduced = 0 := by
    decide +kernel
  rw [houtput', hreduced'] at hfilter'
  rw [houtput', hempty, List.nil_append] at hcontents'
  rw [← hcontents] at hfilter'
  refine ⟨k', k1', hfilter, hcontents, hfilter', hcontents', ?_⟩
  rw [hcontents, hcontents']
  intro hsame
  exact absurd (eq_of_packetBytes hsame) (by decide +kernel)

def shrinkingRun : List Packet :=
  [.padded 0x40 0x00 0x10
      (161 :: List.replicate 161 stuffingByte ++ mixedSection.take 22),
    keptPacket, .padded 0x00 0x00 0x11 (mixedSection.drop 22)]

theorem shrunk_run_is_filtered_again :
    Delivers (Feed.ofBytes (packetBytes shrinkingRun))
      (packetBytes shrinkingRun ++ []) ∧
      ([] : Bytes).length < frameSize ∧ Sink.AcceptsAll Tray.unlimited ∧
      exists (stats : Stats) (k' : Tray) (out : List Packet),
        (filter mapDiscovery (Feed.ofBytes (packetBytes shrinkingRun))
          Tray.unlimited).value = (.ok stats, k') ∧
          Sink.contents k' = Sink.contents Tray.unlimited ++ packetBytes out ∧
          exists (stats' : Stats) (k1' : Tray) (again : List Packet),
            (filter mapDiscovery (Feed.ofBytes (packetBytes out))
              Tray.unlimited).value = (.ok stats', k1') ∧
              Sink.contents k1' =
                Sink.contents Tray.unlimited ++ packetBytes again ∧
              stats'.packetsRead = (packetBytes out).length / frameSize ∧
              stats'.packetsWritten = (packetBytes out).length / frameSize ∧
              patPackets again = patPackets out ∧
              again.filter (·.pid ≠ patPid) = out.filter (·.pid ≠ patPid) ∧
              (packetBytes again = packetBytes out ↔ ¬ Overtakes out) := by
  have hr := Feed.delivers_packetBytes shrinkingRun
  have htail : ([] : Bytes).length < frameSize := by decide
  have hk : Sink.AcceptsAll Tray.unlimited := Tray.acceptsAll rfl rfl
  rcases filter_again_iff hr htail hk mapDiscovery with
    ⟨stats, k', out, hfilter, hcontents, hagain⟩
  have hr' := Feed.delivers_ofBytes (packetBytes out)
  exact ⟨hr, htail, hk, stats, k', out, hfilter, hcontents, hagain hr' hk⟩

end TransportStream
