import TransportStream.Proofs.Filter.Overtaking

/-!
# The association table by itself

What the filter does with the packets of the association table does not depend
on the packets between them.  It reads them by themselves: a run opens, is
lengthened, and ends in one of four ways, and a packet outside of all runs
stands alone.  The reading below is stated without anything held back.  The
filter follows it, and follows no other.
-/

namespace TransportStream
namespace Filter

/-- A reading of association packets: what is written for them, and how many
tables are counted as reduced.  An open run is lengthened as far as it stays
open. -/
inductive Reading (pmtPids : PidSet) :
    List Packet -> List Packet -> Nat -> Prop where
  | nothing : Reading pmtPids [] [] 0
  | aloneReduced {p : Packet} {reduced packets out : List Packet} {n : Nat} :
      ¬ IsOpenRun p [] -> (Pat.reduce? pmtPids [p]).value = some reduced ->
        Reading pmtPids packets out n ->
          Reading pmtPids (p :: packets) (reduced ++ out) (n + 1)
  | alone {p : Packet} {packets out : List Packet} {n : Nat} :
      ¬ IsOpenRun p [] -> (Pat.reduce? pmtPids [p]).value = none ->
        Reading pmtPids packets out n ->
          Reading pmtPids (p :: packets) (p :: out) n
  | completed {first p : Packet} {later reduced packets out : List Packet}
    {start stop n : Nat} :
      IsOpenRun first later ->
        Consecutive (lastCounter first.counter later) [p] ->
        Pat.spanOf (first :: (later ++ [p])) = .complete start stop ->
          (Pat.reduce? pmtPids (first :: (later ++ [p]))).value =
            some reduced ->
            Reading pmtPids packets out n ->
              Reading pmtPids (first :: (later ++ p :: packets))
                (reduced ++ out) (n + 1)
  | invalid {first p : Packet} {later packets out : List Packet} {n : Nat} :
      IsOpenRun first later ->
        Consecutive (lastCounter first.counter later) [p] ->
        Pat.spanOf (first :: (later ++ [p])) = .invalid ->
          Reading pmtPids packets out n ->
          Reading pmtPids (first :: (later ++ p :: packets))
            (first :: (later ++ p :: out)) n
  | broken {first p : Packet} {later packets out : List Packet} {n : Nat} :
      IsOpenRun first later ->
        ¬ Consecutive (lastCounter first.counter later) [p] ->
        Reading pmtPids (p :: packets) out n ->
          Reading pmtPids (first :: (later ++ p :: packets))
            (first :: (later ++ out)) n
  | ended {first : Packet} {later : List Packet} :
      IsOpenRun first later ->
        Reading pmtPids (first :: later) (first :: later) 0

/-!
## What one packet leads to
-/

variable {pmtPids : PidSet} {first p : Packet}
  {held later packets : List Packet}

theorem stepPat_of_not_accepts (haccepts : accepts held p = false) :
    stepPat pmtPids held p =
      ((stepPat pmtPids [] p).1, (stepPat pmtPids [] p).2.1,
        release held ++ (stepPat pmtPids [] p).2.2) := by
  rw [stepPat, stepPat, haccepts, accepts_nil]
  rfl

theorem stepPat_nil_of_opensRun (hopens : opensRun p = true) :
    stepPat pmtPids [] p = ([p], 0, []) := by
  rw [stepPat, accepts_nil, if_neg Bool.false_ne_true, startAfresh,
    if_pos hopens]
  rfl

theorem stepPat_nil_of_alone (hopens : opensRun p = false) :
    stepPat pmtPids [] p = ([], emitReduced pmtPids [p]) := by
  rw [stepPat, accepts_nil, if_neg Bool.false_ne_true, startAfresh, hopens]
  rfl

theorem emitReduced_of_some {run reduced : List Packet}
    (h : (Pat.reduce? pmtPids run).value = some reduced) :
    (emitReduced pmtPids run).1 = 1 ∧ written (emitReduced pmtPids run).2 =
      reduced := by
  unfold emitReduced
  cases hreduce : Pat.reduce? pmtPids run with
  | mk reduced? log =>
      rw [hreduce] at h
      cases h
      exact ⟨rfl, by simp⟩

theorem emitReduced_of_none {run : List Packet}
    (h : (Pat.reduce? pmtPids run).value = none) :
    (emitReduced pmtPids run).1 = 0 ∧ written (emitReduced pmtPids run).2 =
      run := by
  unfold emitReduced
  cases hreduce : Pat.reduce? pmtPids run with
  | mk reduced? log =>
      rw [hreduce] at h
      cases h
      exact ⟨rfl, by simp⟩

theorem exists_reduce?_of_complete {start stop : Nat}
    (hstart : first.unitStart = true)
    (hspan : Pat.spanOf (first :: later) = .complete start stop) :
    exists reduced,
      (Pat.reduce? pmtPids (first :: later)).value = some reduced := by
  unfold Pat.reduce?
  dsimp only
  rw [hstart, hspan]
  exact ⟨_, rfl⟩

/-!
## What all packets lead to
-/

def reductions (pmtPids : PidSet) (held : List Packet) : List Packet -> Nat
  | [] => 0
  | p :: packets =>
      (stepPat pmtPids held p).2.1 +
        reductions pmtPids (stepPat pmtPids held p).1 packets

theorem patsReduced_run (d : Discovery) (s : State) (packets : List Packet) :
    (run d s packets).1.patsReduced =
      s.patsReduced + reductions d.pmtPids s.held (patPackets packets) := by
  induction packets generalizing s with
  | nil => rfl
  | cons p packets ih =>
      rw [run_cons, ih]
      by_cases hp : p.pid = patPid
      · rw [patPackets_cons_of_pat hp, reductions, step_of_pat hp,
          Nat.add_assoc]
      · rw [patPackets_cons_of_other hp, step, if_neg hp]

def patResult (pmtPids : PidSet) (held packets : List Packet) :
    List Packet × Nat :=
  (patOutput pmtPids held packets, reductions pmtPids held packets)

theorem patResult_cons (pmtPids : PidSet) (held : List Packet) (p : Packet)
    (packets : List Packet) :
    patResult pmtPids held (p :: packets) =
      (written (stepPat pmtPids held p).2.2 ++
          (patResult pmtPids (stepPat pmtPids held p).1 packets).1,
        (stepPat pmtPids held p).2.1 +
          (patResult pmtPids (stepPat pmtPids held p).1 packets).2) := rfl

theorem patResult_cons_of_unfinished (haccepts : accepts held p = true)
    (hspan : Pat.spanOf (held ++ [p]) = .unfinished) (packets : List Packet) :
    patResult pmtPids held (p :: packets) =
      patResult pmtPids (held ++ [p]) packets := by
  rw [patResult_cons, stepPat_of_unfinished haccepts hspan, Nat.zero_add]
  rfl

theorem patResult_nil_cons_of_opensRun (hopens : opensRun p = true)
    (packets : List Packet) :
    patResult pmtPids [] (p :: packets) = patResult pmtPids [p] packets := by
  rw [patResult_cons, stepPat_nil_of_opensRun hopens, Nat.zero_add]
  rfl

theorem patResult_cons_of_not_accepts (haccepts : accepts held p = false)
    (packets : List Packet) :
    patResult pmtPids held (p :: packets) =
      (held ++ (patResult pmtPids [] (p :: packets)).1,
        (patResult pmtPids [] (p :: packets)).2) := by
  rw [patResult_cons, stepPat_of_not_accepts haccepts,
    patResult_cons pmtPids []]
  simp

theorem patResult_of_openRun {more : List Packet}
    (h : IsOpenRun first (later ++ more)) (packets : List Packet) :
    patResult pmtPids (first :: later) (more ++ packets) =
      patResult pmtPids (first :: (later ++ more)) packets := by
  induction more generalizing later with
  | nil => rw [List.append_nil, List.nil_append]
  | cons p more ih =>
      rcases isOpenRun_front h with ⟨haccepts, hspan⟩
      rw [List.append_cons] at h ⊢
      rw [List.cons_append, patResult_cons_of_unfinished haccepts hspan, ← ih h]
      rfl

theorem patResult_nil_of_openRun (h : IsOpenRun first later)
    (packets : List Packet) :
    patResult pmtPids [] (first :: (later ++ packets)) =
      patResult pmtPids (first :: later) packets := by
  have hspan := Pat.spanOf_take_of_unfinished h.unfinished 0
  have hopens := opensRun_iff.mpr ⟨h.unitStart, h.intact, hspan⟩
  rw [← List.nil_append later] at h
  rw [patResult_nil_cons_of_opensRun hopens, patResult_of_openRun h,
    List.nil_append]

/-!
## The filter and the reading
-/

theorem opensRun_iff_isOpenRun (hp : p.pid = patPid) :
    opensRun p = true ↔ IsOpenRun p [] := by
  rw [opensRun_iff]
  constructor
  · intro h
    rcases h with ⟨hstart, herror, hspan⟩
    refine ⟨hstart, herror, trivial, hspan, ?_⟩
    intro q hq
    rw [List.mem_singleton.mp hq]
    exact hp
  · intro h
    exact ⟨h.unitStart, h.intact, h.unfinished⟩

theorem opensRun_eq_false_iff (hp : p.pid = patPid) :
    opensRun p = false ↔ ¬ IsOpenRun p [] := by
  rw [← opensRun_iff_isOpenRun hp, Bool.not_eq_true]

theorem accepts_eq_false_iff :
    accepts (first :: later) p = false ↔
      ¬ Consecutive (lastCounter first.counter later) [p] := by
  rw [← accepts_cons_iff, Bool.not_eq_true]

theorem reading_alone (hnot : ¬ IsOpenRun p []) {out : List Packet} {n : Nat}
    (h : Reading pmtPids packets out n) :
    Reading pmtPids (p :: packets) (written (emitReduced pmtPids [p]).2 ++ out)
      ((emitReduced pmtPids [p]).1 + n) := by
  cases hreduce : (Pat.reduce? pmtPids [p]).value with
  | some reduced =>
      rcases emitReduced_of_some hreduce with ⟨hcount, hwritten⟩
      rw [hcount, hwritten, Nat.add_comm]
      exact .aloneReduced hnot hreduce h
  | none =>
      rcases emitReduced_of_none hreduce with ⟨hcount, hwritten⟩
      rw [hcount, hwritten, Nat.zero_add]
      exact .alone hnot hreduce h

theorem reading_completed (hopen : IsOpenRun first later)
    (hnext : Consecutive (lastCounter first.counter later) [p])
    {start stop : Nat}
    (hspan : Pat.spanOf (first :: (later ++ [p])) = .complete start stop)
    {out : List Packet} {n : Nat} (h : Reading pmtPids packets out n) :
    Reading pmtPids (first :: (later ++ p :: packets))
      (written (emitReduced pmtPids (first :: (later ++ [p]))).2 ++ out)
      ((emitReduced pmtPids (first :: (later ++ [p]))).1 + n) := by
  rcases exists_reduce?_of_complete hopen.unitStart hspan with
    ⟨reduced, hreduce⟩
  rcases emitReduced_of_some hreduce with ⟨hcount, hwritten⟩
  rw [hcount, hwritten, Nat.add_comm]
  exact .completed hopen hnext hspan hreduce h

/-- The filter follows a reading, whatever it holds. -/
theorem reading_patResult (hheld : Held held)
    (hpid : forall p, p ∈ packets -> p.pid = patPid) :
    Reading pmtPids (held ++ packets) (patResult pmtPids held packets).1
      (patResult pmtPids held packets).2 := by
  induction packets generalizing held with
  | nil =>
      rcases hheld with rfl | ⟨first, later, rfl, hopen⟩
      · exact .nothing
      · rw [List.append_nil]
        exact .ended hopen
  | cons p packets ih =>
      have hp := hpid p List.mem_cons_self
      have hlater : forall q, q ∈ packets -> q.pid = patPid := by
        intro q hq
        exact hpid q (List.mem_cons_of_mem p hq)
      have hafresh :
          Reading pmtPids (p :: packets) (patResult pmtPids [] (p :: packets)).1
          (patResult pmtPids [] (p :: packets)).2 := by
        cases hopens : opensRun p with
        | true =>
            have hopen := (opensRun_iff_isOpenRun hp).mp hopens
            rw [patResult_nil_cons_of_opensRun hopens]
            exact ih (.inr ⟨p, [], rfl, hopen⟩) hlater
        | false =>
            have hnot := (opensRun_eq_false_iff hp).mp hopens
            rw [patResult_cons, stepPat_nil_of_alone hopens]
            exact reading_alone hnot (ih (.inl rfl) hlater)
      rcases hheld with rfl | ⟨first, later, rfl, hopen⟩
      · exact hafresh
      · cases haccepts : accepts (first :: later) p with
        | false =>
            have hnot := accepts_eq_false_iff.mp haccepts
            rw [patResult_cons_of_not_accepts haccepts]
            exact .broken hopen hnot hafresh
        | true =>
            have hnext := accepts_cons_iff.mp haccepts
            have hnone := ih (.inl rfl) hlater
            rw [patResult_cons]
            cases hspan : Pat.spanOf (first :: (later ++ [p])) with
            | unfinished =>
                have hlonger := isOpenRun_append hopen hp haccepts hspan
                have hrest :=
                  ih (.inr ⟨first, later ++ [p], rfl, hlonger⟩) hlater
                rw [stepPat_of_unfinished haccepts hspan, Nat.zero_add,
                  List.append_cons]
                exact hrest
            | complete start stop =>
                rw [stepPat_of_complete haccepts hspan]
                exact reading_completed hopen hnext hspan hnone
            | invalid =>
                rw [stepPat_of_invalid haccepts hspan, Nat.zero_add,
                  written_release, List.cons_append, List.append_assoc]
                exact .invalid hopen hnext hspan hnone

theorem patResult_of_reading {out : List Packet} {n : Nat}
    (h : Reading pmtPids packets out n)
    (hpid : forall p, p ∈ packets -> p.pid = patPid) :
    patResult pmtPids [] packets = (out, n) := by
  induction h with
  | nothing => rfl
  | @aloneReduced p reduced packets out n hnot hreduce _ ih =>
      rcases emitReduced_of_some hreduce with ⟨hcount, hwritten⟩
      have hrest := ih (fun q hq => hpid q (List.mem_cons_of_mem p hq))
      have hopens :=
        (opensRun_eq_false_iff (hpid p List.mem_cons_self)).mpr hnot
      rw [patResult_cons, stepPat_nil_of_alone hopens, hrest, hcount, hwritten,
        Nat.add_comm]
  | @alone p packets out n hnot hreduce _ ih =>
      rcases emitReduced_of_none hreduce with ⟨hcount, hwritten⟩
      have hrest := ih (fun q hq => hpid q (List.mem_cons_of_mem p hq))
      have hopens :=
        (opensRun_eq_false_iff (hpid p List.mem_cons_self)).mpr hnot
      rw [patResult_cons, stepPat_nil_of_alone hopens, hrest, hcount, hwritten,
        Nat.zero_add]
      rfl
  | @completed first p later reduced packets out start stop n hopen hnext hspan
    hreduce _ ih =>
      rcases emitReduced_of_some hreduce with ⟨hcount, hwritten⟩
      have hrest := ih (fun q hq => hpid q (by simp [hq]))
      rw [patResult_nil_of_openRun hopen, patResult_cons,
        stepPat_of_complete (accepts_cons_iff.mpr hnext) hspan, hrest,
        List.cons_append, hcount, hwritten, Nat.add_comm]
  | @invalid first p later packets out n hopen hnext hspan _ ih =>
      have hrest := ih (fun q hq => hpid q (by simp [hq]))
      rw [patResult_nil_of_openRun hopen, patResult_cons,
        stepPat_of_invalid (accepts_cons_iff.mpr hnext) hspan, hrest,
        written_release, Nat.zero_add, List.cons_append, List.cons_append,
        List.append_assoc]
      rfl
  | @broken first p later packets out n hopen hnot _ ih =>
      have hpid' : forall q, q ∈ p :: packets -> q.pid = patPid := by
        intro q hq
        exact hpid q (List.mem_cons_of_mem first
          (List.mem_append_right later hq))
      rw [patResult_nil_of_openRun hopen,
        patResult_cons_of_not_accepts (accepts_eq_false_iff.mpr hnot), ih hpid']
      rfl
  | @ended first later hopen =>
      have hnil : patResult pmtPids [] (first :: (later ++ [])) =
          patResult pmtPids (first :: later) [] :=
            patResult_nil_of_openRun hopen []
      rw [List.append_nil] at hnil
      rw [hnil]
      rfl

theorem reading_iff (hpid : forall p, p ∈ packets -> p.pid = patPid)
    (out : List Packet) (n : Nat) :
    Reading pmtPids packets out n ↔
      patResult pmtPids [] packets = (out, n) := by
  constructor
  · intro h
    exact patResult_of_reading h hpid
  · intro h
    have hreading :
        Reading pmtPids ([] ++ packets) (patResult pmtPids [] packets).1
        (patResult pmtPids [] packets).2 := reading_patResult (.inl rfl) hpid
    rw [h] at hreading
    exact hreading

theorem reading_output_iff (d : Discovery) (packets out : List Packet)
    (n : Nat) :
    Reading d.pmtPids (patPackets packets) out n ↔
      out = patPackets (output d packets) ∧
        n = (run d .initial packets).1.patsReduced := by
  have hpid : forall p, p ∈ patPackets packets -> p.pid = patPid := by
    intro p hp
    exact of_decide_eq_true (List.mem_filter.mp hp).right
  have hcount : (run d .initial packets).1.patsReduced =
      reductions d.pmtPids [] (patPackets packets) := by
    rw [patsReduced_run]
    exact Nat.zero_add _
  rw [reading_iff hpid, patResult, patPackets_output, hcount, Prod.mk.injEq,
    eq_comm (a := out), eq_comm (a := n)]

end Filter

open TransportStream.Filter

variable {ρ ρ' κ κ' : Type} [FiniteSource ρ] [FiniteSource ρ'] [Sink κ]
  [Sink κ']

/-- The association packets written, and the number of tables counted as
reduced, are those of the one reading of the association packets; over two
inputs with the same association packets they are the same, whatever stands
between them.  Nor do the other packets written depend on association
packets. -/
theorem filter_reads_association_packets_apart {r : ρ} {r' : ρ'} {k : κ}
    {k' : κ'} {packets packets' : List Packet} {tail tail' : Bytes}
    (hr : Delivers r (packetBytes packets ++ tail))
    (htail : tail.length < frameSize) (hk : Sink.AcceptsAll k)
    (hr' : Delivers r' (packetBytes packets' ++ tail'))
    (htail' : tail'.length < frameSize) (hk' : Sink.AcceptsAll k')
    (d : Discovery) :
    exists (stats stats' : Stats) (k1 : κ) (k1' : κ') (out out' : List Packet),
      (filter d r k).value = (.ok stats, k1) ∧
        Sink.contents k1 = Sink.contents k ++ packetBytes out ∧
        (filter d r' k').value = (.ok stats', k1') ∧
        Sink.contents k1' = Sink.contents k' ++ packetBytes out' ∧
        (patPackets packets = patPackets packets' ->
          patPackets out = patPackets out' ∧
          stats.patsReduced = stats'.patsReduced) ∧
        (packets.filter (·.pid ≠ patPid) = packets'.filter (·.pid ≠ patPid) ->
          out.filter (·.pid ≠ patPid) = out'.filter (·.pid ≠ patPid)) ∧
        (forall (read : List Packet) (n : Nat),
          Reading d.pmtPids (patPackets packets) read n ↔
            read = patPackets out ∧ n = stats.patsReduced) := by
  rcases filter_of_delivers hr htail hk d with ⟨k1, hfilter, hcontents⟩
  rcases filter_of_delivers hr' htail' hk' d with ⟨k1', hfilter', hcontents'⟩
  refine ⟨_, _, k1, k1', output d packets, output d packets', hfilter,
    hcontents, hfilter', hcontents', ?_, ?_, reading_output_iff d packets⟩
  · intro hsame
    have hreading := (reading_output_iff d packets _ _).mpr ⟨rfl, rfl⟩
    rw [hsame] at hreading
    exact (reading_output_iff d packets' _ _).mp hreading
  · intro hsame
    rw [otherPackets_output, otherPackets_output, hsame]

/-!
## One table among different packets
-/

def mixedFirst : List Packet :=
  [mixedStart, keptPacket, mixedRest, mixedStart, keptPacket, flaggedPacket,
    mixedRest]

def mixedApart : List Packet :=
  [mixedStart, mixedRest, .padded 0x03 0x00 0x10 [], mixedStart, flaggedPacket,
    mixedRest]

theorem filter_reads_mixed_runs_alike :
    Delivers (Feed.ofBytes (packetBytes mixedFirst))
      (packetBytes mixedFirst ++ []) ∧
      Delivers (Feed.ofBytes (packetBytes mixedApart))
        (packetBytes mixedApart ++ []) ∧
      ([] : Bytes).length < frameSize ∧ Sink.AcceptsAll Tray.unlimited ∧
      patPackets mixedFirst = patPackets mixedApart ∧
      exists (stats stats' : Stats) (k1 k1' : Tray) (out out' : List Packet),
        (filter mapDiscovery (Feed.ofBytes (packetBytes mixedFirst))
          Tray.unlimited).value = (.ok stats, k1) ∧
          Sink.contents k1 = Sink.contents Tray.unlimited ++ packetBytes out ∧
          (filter mapDiscovery (Feed.ofBytes (packetBytes mixedApart))
            Tray.unlimited).value = (.ok stats', k1') ∧
          Sink.contents k1' = Sink.contents Tray.unlimited ++ packetBytes out' ∧
          patPackets out = patPackets out' ∧
          stats.patsReduced = stats'.patsReduced ∧
          Reading mapDiscovery.pmtPids (patPackets mixedFirst) (patPackets out)
            stats.patsReduced := by
  have hr := Feed.delivers_packetBytes mixedFirst
  have hr' := Feed.delivers_packetBytes mixedApart
  have htail : ([] : Bytes).length < frameSize := by decide
  have hk : Sink.AcceptsAll Tray.unlimited := Tray.acceptsAll rfl rfl
  have hsame : patPackets mixedFirst = patPackets mixedApart := by
    decide +kernel
  rcases filter_reads_association_packets_apart hr htail hk hr' htail hk
    mapDiscovery with
    ⟨stats, stats', k1, k1', out, out', hfilter, hcontents, hfilter',
      hcontents', hpats, -, hreading⟩
  rcases hpats hsame with ⟨hpackets, hreduced⟩
  exact ⟨hr, hr', htail, hk, hsame, stats, stats', k1, k1', out, out', hfilter,
    hcontents, hfilter', hcontents', hpackets, hreduced,
    (hreading _ _).mpr ⟨rfl, rfl⟩⟩

end TransportStream
