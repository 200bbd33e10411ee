import TransportStream.Proofs.Filter.Failures
import TransportStream.Proofs.Filter.Reading

/-!
# What is held back between two packets

Between two packets the filter holds nothing, or a run whose section is still
unfinished.  Such a run is bounded, and once a packet completes it, it can be
reduced.  The filter therefore counts every completed run, and the completed
runs can be found in the packets read, without regard to what was held.
-/

namespace TransportStream

namespace Pat

/-- A section behind the farthest pointer, as long as can be, ends within 4354
bytes. -/
theorem length_of_locate_unfinished {data : Bytes} {firstLength : Nat}
    (h : Span.locate data firstLength = .unfinished) : data.length ≤ 4353 := by
  cases data with
  | nil => cases h
  | cons pointer rest =>
      have hpointer := pointer.toNat_lt
      simp only [Span.locate] at h
      split at h
      · cases h
      · cases hsize : announcedSize?
          ((pointer :: rest).drop (1 + pointer.toNat)) with
        | none =>
            have hshort := announcedSize?_eq_none_iff.mp hsize
            rw [List.length_drop] at hshort
            lia
        | some size =>
            rw [hsize] at h
            dsimp only at h
            have hle := le_of_announcedSize? hsize
            split at h
            · cases h
            · split at h
              · lia
              · cases h

theorem length_joined_of_unfinished {run : List Packet}
    (h : spanOf run = .unfinished) :
    (joined run).length ≤ 4353 := by
  cases run with
  | nil => cases h
  | cons first later => exact length_of_locate_unfinished h

end Pat

namespace Filter

variable {pmtPids : PidSet} {first p : Packet}
  {held later packets : List Packet}

/-!
## Completed runs
-/

/-- The run that starts with a packet, if the packets behind it complete it.  A
packet with a transport error makes a run only by itself. -/
def completedRun? (first : Packet) (packets : List Packet) :
    Option (List Packet) :=
  if first.unitStart then
    settledRun? [first] (if first.transportError then [] else packets)
  else none

def completedRuns : List Packet -> List (List Packet)
  | [] => []
  | p :: packets => (completedRun? p packets).toList ++ completedRuns packets

theorem completedRun?_eq_some_iff {run : List Packet} :
    completedRun? first packets = some run ↔
      exists later rest, packets = later ++ rest ∧ run = first :: later ∧
        first.unitStart = true ∧ (first.transportError = true -> later = []) ∧
        IsRun first later := by
  unfold completedRun?
  cases first.unitStart with
  | false =>
      constructor
      · intro h
        cases h
      · rintro ⟨_, _, _, _, h, _⟩
        cases h
  | true =>
      rw [if_pos rfl, settledRun?_eq_some_iff]
      cases first.transportError with
      | false =>
          constructor
          · rintro ⟨later, rest, hpackets, hrun, hisRun⟩
            exact ⟨later, rest, hpackets, hrun, rfl, nofun, hisRun⟩
          · rintro ⟨later, rest, hpackets, hrun, _, _, hisRun⟩
            exact ⟨later, rest, hpackets, hrun, hisRun⟩
      | true =>
          constructor
          · rintro ⟨later, rest, hnothing, hrun, hisRun⟩
            rcases List.append_eq_nil_iff.mp hnothing.symm with ⟨rfl, _⟩
            exact ⟨[], packets, rfl, hrun, rfl, fun _ => rfl, hisRun⟩
          · rintro ⟨later, rest, _, hrun, _, halone, hisRun⟩
            cases halone rfl
            exact ⟨[], [], rfl, hrun, hisRun⟩

theorem mem_completedRuns_iff {run : List Packet} :
    run ∈ completedRuns packets ↔
      exists before first later after,
        packets = before ++ first :: (later ++ after) ∧
        run = first :: later ∧ first.unitStart = true ∧
        (first.transportError = true -> later = []) ∧ IsRun first later := by
  induction packets with
  | nil =>
      constructor
      · intro h
        cases h
      · rintro ⟨before, first, later, after, hnothing, _⟩
        cases (List.append_eq_nil_iff.mp hnothing.symm).right
  | cons p packets ih =>
      rw [completedRuns, List.mem_append, ih, Option.mem_toList,
        completedRun?_eq_some_iff]
      constructor
      · rintro (⟨later, rest, rfl, hrun⟩ | ⟨before, first, later, after,
          rfl, hrun⟩)
        · exact ⟨[], p, later, rest, rfl, hrun⟩
        · exact ⟨p :: before, first, later, after, rfl, hrun⟩
      · rintro ⟨before, first, later, after, hpackets, hrun⟩
        cases before with
        | nil =>
            rw [List.nil_append, List.cons.injEq] at hpackets
            rcases hpackets with ⟨rfl, hpackets⟩
            exact .inl ⟨later, after, hpackets, hrun⟩
        | cons q before =>
            rw [List.cons_append, List.cons.injEq] at hpackets
            exact .inr ⟨before, first, later, after, hpackets.right, hrun⟩

theorem exists_reduce?_of_completed (pmtPids : PidSet) {run : List Packet}
    (h : run ∈ completedRuns packets) :
    exists reduced, (Pat.reduce? pmtPids run).value = some reduced := by
  rcases mem_completedRuns_iff.mp h with
    ⟨_, first, later, _, _, rfl, hstart, _, hisRun⟩
  rcases hisRun.complete with ⟨start, stop, hspan⟩
  exact exists_reduce?_of_complete hstart hspan

/-!
## Counting them
-/

theorem count_emitReduced_of_complete {start stop : Nat}
    (hstart : first.unitStart = true)
    (hspan : Pat.spanOf (first :: later) = .complete start stop) :
    (emitReduced pmtPids (first :: later)).1 = 1 := by
  obtain ⟨reduced, hreduce⟩ :
      exists reduced,
        (Pat.reduce? pmtPids (first :: later)).value = some reduced :=
    exists_reduce?_of_complete hstart hspan
  exact (emitReduced_of_some hreduce).left

theorem reduce?_of_later (hstart : first.unitStart = false) :
    (Pat.reduce? pmtPids (first :: later)).value = none := by
  unfold Pat.reduce?
  dsimp only
  rw [hstart]
  rfl

theorem reduce?_of_not_complete
    (hspan : forall start stop, Pat.spanOf (first :: later) ≠
      .complete start stop) :
    (Pat.reduce? pmtPids (first :: later)).value = none := by
  cases hstart : first.unitStart with
  | false => exact reduce?_of_later hstart
  | true =>
      unfold Pat.reduce?
      dsimp only
      rw [hstart]
      cases hcase : Pat.spanOf (first :: later) with
      | complete start stop => exact absurd hcase (hspan start stop)
      | unfinished => rfl
      | invalid => rfl

theorem completedRun?_of_opensRun (h : opensRun p = true)
    (packets : List Packet) :
    completedRun? p packets = settledRun? [p] packets := by
  rcases opensRun_iff.mp h with ⟨hstart, herror, _⟩
  rw [completedRun?, if_pos hstart, herror, if_neg Bool.false_ne_true]

theorem count_emitReduced_of_alone (h : opensRun p = false)
    (packets : List Packet) :
    (emitReduced pmtPids [p]).1 = (completedRun? p packets).toList.length := by
  unfold completedRun?
  cases hstart : p.unitStart with
  | false =>
      rw [if_neg Bool.false_ne_true]
      exact (emitReduced_of_none (reduce?_of_later hstart)).left
  | true =>
      rw [if_pos rfl]
      cases hspan : Pat.spanOf [p] with
      | complete start stop =>
          rw [settledRun?_of_complete hspan]
          exact count_emitReduced_of_complete hstart hspan
      | invalid =>
          rw [settledRun?_of_invalid hspan]
          exact (emitReduced_of_none
            (reduce?_of_not_complete (by simp [hspan]))).left
      | unfinished =>
          have herror : p.transportError = true := by
            simpa [opensRun, hstart, hspan] using h
          rw [herror, if_pos rfl, settledRun?, hspan]
          exact (emitReduced_of_none
            (reduce?_of_not_complete (by simp [hspan]))).left

/-- The count while a run is held: this run, if it is completed, and the
completed runs that start behind it. -/
def CountsRuns (pmtPids : PidSet) (held packets : List Packet) : Prop :=
  reductions pmtPids held packets =
    (settledRun? held packets).toList.length + (completedRuns packets).length

theorem counts_nil_iff :
    CountsRuns pmtPids [] packets ↔
      reductions pmtPids [] packets = (completedRuns packets).length := by
  rw [CountsRuns, settledRun?_of_invalid rfl, Option.toList_none,
    List.length_nil, Nat.zero_add]

theorem counts_of_fresh
    (hopened : opensRun p = true -> CountsRuns pmtPids [p] packets)
    (hnothing : CountsRuns pmtPids [] packets) :
    CountsRuns pmtPids [] (p :: packets) := by
  rw [counts_nil_iff] at hnothing ⊢
  rw [reductions, completedRuns, List.length_append]
  cases hopens : opensRun p with
  | true =>
      rw [stepPat_nil_of_opensRun hopens, hopened hopens,
        completedRun?_of_opensRun hopens, Nat.zero_add]
  | false =>
      rw [stepPat_nil_of_alone hopens, hnothing,
        count_emitReduced_of_alone hopens packets]

theorem counts_of_broken (hopen : IsOpenRun first later)
    (haccepts : accepts (first :: later) p = false)
    (hfresh : CountsRuns pmtPids [] (p :: packets)) :
    CountsRuns pmtPids (first :: later) (p :: packets) := by
  rw [counts_nil_iff] at hfresh
  rw [CountsRuns, settledRun?_cons_of_unfinished hopen.unfinished, haccepts,
    if_neg Bool.false_ne_true, reductions, stepPat_of_not_accepts haccepts,
    ← reductions, hfresh]
  exact (Nat.zero_add _).symm

theorem counts_of_lengthened (hopen : IsOpenRun first later)
    (haccepts : accepts (first :: later) p = true)
    (hlonger : Pat.spanOf (first :: (later ++ [p])) = .unfinished ->
      CountsRuns pmtPids (first :: (later ++ [p])) packets)
    (hnothing : CountsRuns pmtPids [] packets) :
    CountsRuns pmtPids (first :: later) (p :: packets) := by
  rw [counts_nil_iff] at hnothing
  -- A packet that lengthens the run starts none itself.
  have hstarts : completedRun? p packets = none := by
    have hnext := accepts_cons_iff.mp haccepts
    rw [completedRun?, hnext.left, if_neg Bool.false_ne_true]
  rw [CountsRuns, settledRun?_cons_of_unfinished hopen.unfinished, haccepts,
    if_pos rfl, reductions, completedRuns, hstarts, Option.toList_none,
    List.nil_append]
  cases hspan : Pat.spanOf (first :: (later ++ [p])) with
  | unfinished =>
      rw [stepPat_of_unfinished haccepts hspan, Nat.zero_add]
      exact hlonger hspan
  | complete start stop =>
      rw [stepPat_of_complete haccepts hspan, hnothing, List.cons_append,
        settledRun?_of_complete hspan,
        count_emitReduced_of_complete hopen.unitStart hspan]
      rfl
  | invalid =>
      rw [stepPat_of_invalid haccepts hspan, hnothing, List.cons_append,
        settledRun?_of_invalid hspan]
      rfl

theorem counts_of_held (pmtPids : PidSet) (hheld : Held held)
    (hpid : forall p, p ∈ packets -> p.pid = patPid) :
    CountsRuns pmtPids held packets := by
  induction packets generalizing held with
  | nil =>
      rcases hheld with rfl | ⟨first, later, rfl, hopen⟩
      · rfl
      · rw [CountsRuns, settledRun?, hopen.unfinished]
        rfl
  | cons p packets ih =>
      have hp := hpid p List.mem_cons_self
      have hlater : forall q, q ∈ packets -> q.pid = patPid := by
        intro q hq
        exact hpid q (List.mem_cons_of_mem p hq)
      have hnothing : CountsRuns pmtPids [] packets := ih (.inl rfl) hlater
      have hfresh : CountsRuns pmtPids [] (p :: packets) := by
        apply counts_of_fresh _ hnothing
        intro hopens
        exact ih (.inr ⟨p, [], rfl, (opensRun_iff_isOpenRun hp).mp hopens⟩)
          hlater
      rcases hheld with rfl | ⟨first, later, rfl, hopen⟩
      · exact hfresh
      · cases haccepts : accepts (first :: later) p with
        | false => exact counts_of_broken hopen haccepts hfresh
        | true =>
            apply counts_of_lengthened hopen haccepts _ hnothing
            intro hspan
            have hlonger := isOpenRun_append hopen hp haccepts hspan
            exact ih (.inr ⟨first, later ++ [p], rfl, hlonger⟩) hlater

theorem patsReduced_run_initial (d : Discovery) (packets : List Packet) :
    (run d .initial packets).1.patsReduced =
      (completedRuns (patPackets packets)).length := by
  have hpid : forall p, p ∈ patPackets packets -> p.pid = patPid := by
    intro p hp
    exact of_decide_eq_true (List.mem_filter.mp hp).right
  have hcount := counts_nil_iff.mp (counts_of_held d.pmtPids (.inl rfl) hpid)
  rw [patsReduced_run]
  exact (Nat.zero_add _).trans hcount

/-!
## The points of a pass
-/

variable {d : Discovery} {s : State}

theorem held_run (hheld : Held s.held) (packets : List Packet) :
    Held (run d s packets).1.held := by
  induction packets generalizing s with
  | nil => exact hheld
  | cons p packets ih =>
      rw [run_cons]
      apply ih
      by_cases hp : p.pid = patPid
      · rw [step_of_pat hp]
        exact (held_stepPat hheld hp d.pmtPids).left
      · rw [step, if_neg hp]
        exact hheld

theorem length_joined_of_held (h : Held held) :
    (Pat.joined held).length ≤ 4353 := by
  rcases h with rfl | ⟨first, later, rfl, hopen⟩
  · exact Nat.zero_le 4353
  · exact Pat.length_joined_of_unfinished hopen.unfinished

theorem step_of_completed {start stop : Nat} (hheld : Held s.held)
    (hp : p.pid = patPid) (haccepts : accepts s.held p = true)
    (hspan : Pat.spanOf (s.held ++ [p]) = .complete start stop) :
    (exists reduced, (Pat.reduce? d.pmtPids (s.held ++ [p])).value =
      some reduced) ∧
      (step d s p).1 = ⟨[], s.packetsRead + 1, s.patsReduced + 1⟩ := by
  rcases s with ⟨held, packetsRead, patsReduced⟩
  rcases hheld with rfl | ⟨first, later, rfl, hopen⟩
  · cases haccepts
  · have hcomplete : Pat.spanOf (first :: (later ++ [p])) =
        .complete start stop := hspan
    constructor
    · exact exists_reduce?_of_complete hopen.unitStart hcomplete
    · rw [step_of_pat hp, stepPat_of_complete haccepts hspan]
      dsimp only
      rw [List.cons_append,
        count_emitReduced_of_complete hopen.unitStart hcomplete]

/-- What the filter has at a point where it is about to read on. -/
structure Keeps (d : Discovery) (packets : List Packet) (s : State) : Prop where
  held : Held s.held
  bounded : (Pat.joined s.held).length ≤ 4353
  reduces : forall p start stop, p.pid = patPid -> accepts s.held p = true ->
    Pat.spanOf (s.held ++ [p]) = .complete start stop ->
      (exists reduced, (Pat.reduce? d.pmtPids (s.held ++ [p])).value =
        some reduced) ∧
        (step d s p).1 = ⟨[], s.packetsRead + 1, s.patsReduced + 1⟩
  counted : s.patsReduced = (completedRuns (patPackets packets)).length

theorem keeps_run_initial (d : Discovery) (packets : List Packet) :
    Keeps d packets (run d .initial packets).1 := by
  have hheld : Held (run d .initial packets).1.held :=
    held_run (.inl rfl) packets
  exact ⟨hheld, length_joined_of_held hheld, fun _ _ _ =>
    step_of_completed hheld, patsReduced_run_initial d packets⟩

variable {ρ κ : Type} [FiniteSource ρ] [Sink κ]

theorem stepInto_more {s s' : State × Output κ}
    (h : (stepInto d s p).value = .more s') :
    s'.1 = (step d s.1 p).1 := by
  simp only [stepInto, Logged.value_bind] at h
  split at h
  · cases h
    rfl
  · cases h

theorem state_of_reaches {r r' : ρ} {s s' : State × Output κ}
    (h : Pass.Reaches (stepInto d) r s packets r' s') :
    s'.1 = (run d s.1 packets).1 := by
  induction h with
  | start r s => rfl
  | turn _ hmore _ ih => rw [ih, run_cons, stepInto_more hmore]

theorem patsReduced_of_close {s : State × Output κ} {stats : Stats} {k : κ}
    (h : (close s).value = (.ok stats, k)) :
    stats.patsReduced = s.1.patsReduced := by
  simp only [close, Logged.value_bind] at h
  split at h
  · cases h
  · split at h
    · cases h
    · cases h
      rfl

theorem stepInto_ne_done (d : Discovery) (s : State × Output κ) (p : Packet)
    (s' : State × Output κ) : (stepInto d s p).value ≠ .done s' := by
  intro h
  simp only [stepInto, Logged.value_bind] at h
  split at h
  · cases h
  · cases h

theorem exists_reaches_of_filter {r : ρ} {k k' : κ} {stats : Stats}
    (h : (filter d r k).value = (.ok stats, k')) :
    exists packets r' r'' s,
      Pass.Reaches (stepInto d) r (.initial, ⟨k, 0⟩) packets r' s ∧
      (Reader.readPacket r').value = (.error .endOfStream, r'') ∧
      stats.patsReduced = s.1.patsReduced := by
  rw [filter, Logged.value_bind, Pass.start] at h
  cases hending : (Pass.run (stepInto d) r (.initial, ⟨k, 0⟩)
    #[]).value.ending with
  | satisfied =>
      exact absurd hending (Pass.ending_ne_satisfied (stepInto_ne_done d) _ _ _)
  | exhausted =>
      rw [hending] at h
      rcases Pass.exists_reaches_of_exhausted hending with
        ⟨packets, r', hreaches, hend⟩
      exact ⟨packets, r', _, _, hreaches, hend, patsReduced_of_close h⟩
  | failed e =>
      rw [hending] at h
      cases h

end Filter

open TransportStream.Filter

variable {ρ κ : Type} [FiniteSource ρ] [Sink κ]

/-- Wherever the filter is about to read on, it holds nothing, or a start packet
and consecutive packets of the association table, all without error, with which
the section is unfinished; these are never more than 4353 bytes.  If the next
packet completes the section, the run can be reduced.  The tables counted as
reduced are therefore the completed runs among the packets read, and so are
those in the statistics. -/
theorem held_run_is_unfinished (d : Discovery) (r : ρ) (k : κ) :
    (forall packets r' s,
      Pass.Reaches (stepInto d) r (.initial, ⟨k, 0⟩) packets r' s ->
        Reader.Reads r packets r' ∧ Keeps d packets s.1) ∧
      (forall stats k', (filter d r k).value = (.ok stats, k') ->
        exists packets r' r'', Reader.Reads r packets r' ∧
          (Reader.readPacket r').value = (.error .endOfStream, r'') ∧
          stats.patsReduced = (completedRuns (patPackets packets)).length ∧
          forall run, run ∈ completedRuns (patPackets packets) ->
            exists reduced,
              (Pat.reduce? d.pmtPids run).value = some reduced) := by
  constructor
  · intro packets r' s hreaches
    refine ⟨hreaches.reads, ?_⟩
    rw [state_of_reaches hreaches]
    exact keeps_run_initial d packets
  · intro stats k' hfilter
    rcases exists_reaches_of_filter hfilter with
      ⟨packets, r', r'', s, hreaches, hend, hstats⟩
    refine ⟨packets, r', r'', hreaches.reads, hend, ?_, ?_⟩
    · rw [hstats, state_of_reaches hreaches]
      exact patsReduced_run_initial d packets
    · intro run hrun
      exact exists_reduce?_of_completed d.pmtPids hrun

theorem held_run_of_mixedFirst :
    exists r' s stats k',
      Pass.Reaches (stepInto mapDiscovery)
        (Feed.ofBytes (packetBytes mixedFirst)) (.initial, ⟨Tray.unlimited, 0⟩)
        (mixedFirst.take 4) r' s ∧
        s.1.held = [mixedStart] ∧ Keeps mapDiscovery (mixedFirst.take 4) s.1 ∧
        (filter mapDiscovery (Feed.ofBytes (packetBytes mixedFirst))
          Tray.unlimited).value = (.ok stats, k') ∧
        stats.patsReduced = 1 ∧
        exists packets r' r'',
          Reader.Reads (Feed.ofBytes (packetBytes mixedFirst)) packets r' ∧
          (Reader.readPacket r').value = (.error .endOfStream, r'') ∧
          stats.patsReduced = (completedRuns (patPackets packets)).length ∧
          forall run, run ∈ completedRuns (patPackets packets) ->
            exists reduced, (Pat.reduce? mapDiscovery.pmtPids run).value =
              some reduced := by
  have hk : Sink.AcceptsAll Tray.unlimited := Tray.acceptsAll rfl rfl
  have hr := Feed.delivers_packetBytes mixedFirst
  have hfront : packetBytes mixedFirst ++ [] =
      packetBytes (mixedFirst.take 4) ++ packetBytes (mixedFirst.drop 4) := by
    rw [List.append_nil, ← packetBytes_append, List.take_append_drop]
  rcases held_run_is_unfinished mapDiscovery
    (Feed.ofBytes (packetBytes mixedFirst))
    Tray.unlimited with ⟨hpoints, hstats⟩
  rcases filter_of_delivers hr (by decide) hk mapDiscovery with ⟨k', hfilter, _⟩
  rw [hfront] at hr
  rcases Pass.reaches_of_delivers
      (fun s : State × Output Tray => Sink.AcceptsAll s.2.sink)
      (nextInto mapDiscovery) (fun s p hs => value_stepInto hs p) hr
      (s := (.initial, ⟨_, 0⟩)) hk with
    ⟨r', hreaches, _⟩
  refine ⟨r', _, _, k', hreaches, ?_, (hpoints _ _ _ hreaches).right, hfilter,
    ?_, hstats _ _ hfilter⟩
  · rw [state_of_reaches hreaches]
    decide +kernel
  · decide +kernel

end TransportStream
