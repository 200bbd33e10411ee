import TransportStream.Proofs.Discovery.Survey
import TransportStream.Proofs.Packet.Payload
import TransportStream.Proofs.Pass.Reads

/-!
# What discovery finds

Discovery ends with success once every announced program map was decoded.  What
it has found is then what the packets read so far say: the maps announced, and
beside the networks what the first table on each of these maps lists.
-/

namespace TransportStream

variable {ρ : Type} [FiniteSource ρ]

open Discovery Pat Survey

theorem knows_run {r : ρ} {s : Survey} {seen : List Packet}
    (h : s.Knows seen seen) (log : Log)
    (hsatisfied : (Pass.run Survey.step r s log).value.ending = .satisfied) :
    exists packets,
      Reader.Reads r packets (Pass.run Survey.step r s log).value.source ∧
      (Pass.run Survey.step r s log).value.state.Knows (seen ++ packets)
        (seen ++ packets) ∧
      (Pass.run Survey.step r s log).value.state.found.isComplete = true := by
  refine seeks_complete.run_induction
    (motive := fun r s pass => forall seen, s.Knows seen seen ->
      pass.ending = .satisfied ->
      exists packets, Reader.Reads r packets pass.source ∧
        pass.state.Knows (seen ++ packets) (seen ++ packets) ∧
        pass.state.found.isComplete = true)
    ?_ ?_ ?_ ?_ r s log seen h hsatisfied
  · intro r r' s _ seen _ hending
    cases hending
  · intro r r' s e _ _ seen _ hending
    cases hending
  · intro r r' s p pass hread _ ih seen hknows hending
    rcases ih (seen ++ [p]) (knows_next hknows p) hending with
      ⟨packets, hreads, hknown, hcomplete⟩
    rw [← List.append_cons] at hknown
    exact ⟨p :: packets, .packet hread hreads, hknown, hcomplete⟩
  · intro r r' s p hread hcomplete seen hknows _
    exact ⟨[p], .packet hread (.nothing r'), knows_next hknows p, hcomplete⟩

theorem knows_discover {r r' : ρ} {d : Discovery}
    (h : (discover r).value = (.ok d, r')) :
    exists (packets : List Packet) (s : Survey),
      Reader.Reads r packets r' ∧ s.Knows packets packets ∧ s.found = d ∧
        d.isComplete = true := by
  have hrun := knows_run (r := r) knows_fresh #[]
  unfold discover at h
  rw [Logged.value_bind, Pass.start] at h
  cases hending : (Pass.run Survey.step r Survey.fresh #[]).value.ending with
  | satisfied =>
      rw [hending] at h
      cases h
      rcases hrun hending with ⟨packets, hreads, hknows, hcomplete⟩
      exact ⟨packets, _, hreads, hknows, rfl, hcomplete⟩
  | exhausted =>
      rw [hending] at h
      cases h
  | failed e =>
      rw [hending] at h
      cases h

/-- As long as only maps announced are decoded, the sizes tell whether all of
them are. -/
theorem Discovery.isComplete_iff_of_subset {d : Discovery}
    (h : d.resolved.toList ⊆ d.pmtPids.toList) :
    d.isComplete = true ↔ d.pmtPids.toList ≠ [] ∧ d.resolved = d.pmtPids := by
  have hsize : (d.pmtPids.size == d.resolved.size) = true ↔
      d.resolved = d.pmtPids := by
    rw [beq_iff_eq]
    constructor
    · exact PidSet.eq_of_subset_of_size fun _ hpid => h hpid
    · intro heq
      rw [heq]
  rw [isComplete, Bool.and_eq_true, Bool.not_eq_true',
    PidSet.isEmpty_eq_false_iff, hsize]

theorem resolved_of_complete {s : Survey} {packets : List Packet}
    (h : s.Knows packets packets) (hcomplete : s.found.isComplete = true) :
    s.found.pmtPids.toList ≠ [] ∧ s.found.resolved = s.found.pmtPids := by
  apply (isComplete_iff_of_subset _).mp hcomplete
  intro pid hpid
  rw [h.known.pmtPids pid]
  exact announced_of_firstMap ((h.known.resolved pid).mp hpid)

/-- When discovery succeeds, the program maps found are those that the packets
read announce, every one of them was decoded, and what is kept are the networks
and what the first table on each of the maps lists. -/
theorem discover_finds_first_maps {r r' : ρ} {d : Discovery}
    (h : (discover r).value = (.ok d, r')) :
    exists packets, Reader.Reads r packets r' ∧
      d.pmtPids.toList ≠ [] ∧
      (forall pid, pid ∈ d.pmtPids.toList ↔
        exists a, a ∈ announced (patPackets packets) ∧
          a.program ≠ 0 ∧ a.pid ≠ oneSegmentPid ∧ a.pid = pid) ∧
      d.resolved = d.pmtPids ∧
      (forall pid, pid ∈ d.pmtPids.toList ->
        exists t, firstMap? pid packets = some t) ∧
      (forall n, n ∈ d.keep.toList ↔
        (exists a, a ∈ announced (patPackets packets) ∧ a.program = 0 ∧
          a.pid = n) ∨
          exists pid t, pid ∈ d.pmtPids.toList ∧
            firstMap? pid packets = some t ∧
            (n = pid ∨ n = t.clockPid ∨ exists s, s ∈ t.streams ∧
              s.pid = n)) := by
  rcases knows_discover h with ⟨packets, s, hreads, hknows, rfl, hcomplete⟩
  rcases resolved_of_complete hknows hcomplete with ⟨hnonempty, hresolved⟩
  have hpmtPids := hknows.known.pmtPids
  have hmaps := hknows.known.resolved
  have hkeep := hknows.known.keep
  dsimp only at hpmtPids hmaps hkeep
  refine ⟨packets, hreads, hnonempty, ?_, hresolved, ?_, ?_⟩
  · intro pid
    rw [hpmtPids pid, mem_mapPids]
  · intro pid hpid
    rw [← hresolved, hmaps pid] at hpid
    exact Option.isSome_iff_exists.mp hpid
  · intro n
    rw [hkeep n, mem_networkPids]
    apply or_congr_right
    constructor
    · rintro ⟨pid, t, hmap, hn⟩
      have hpid : pid ∈ s.found.pmtPids.toList := by
        rw [← hresolved, hmaps pid, hmap]
        rfl
      exact ⟨pid, t, hpid, hmap, by simpa [Pmt.pids] using hn⟩
    · rintro ⟨pid, t, _, hmap, hn⟩
      exact ⟨pid, t, hmap, by simpa [Pmt.pids] using hn⟩

/-!
## Discovery over packets that are delivered
-/

def Survey.find? (s : Survey) : List Packet -> Option Discovery
  | [] => none
  | p :: packets =>
      if (next s p).found.isComplete then some (next s p).found
      else find? (next s p) packets

theorem run_of_delivers {packets : List Packet} {tail : Bytes}
    (htail : tail.length < frameSize) {r : ρ}
    (hr : Delivers r (packetBytes packets ++ tail)) (s : Survey) (log : Log) :
    match s.find? packets with
    | some d =>
        (Pass.run Survey.step r s log).value.ending = .satisfied ∧
          (Pass.run Survey.step r s log).value.state.found = d
    | none => (Pass.run Survey.step r s log).value.ending = .exhausted := by
  refine seeks_complete.delivers_induction (motive := fun packets s pass =>
    match s.find? packets with
    | some d => pass.ending = .satisfied ∧ pass.state.found = d
    | none => pass.ending = .exhausted) ?_ ?_ ?_ htail hr s log
  · intro s r
    rfl
  · intro p packets s pass hopen ih
    rw [find?, if_neg (Bool.eq_false_iff.mp hopen)]
    exact ih
  · intro p packets s r hcomplete
    rw [find?, if_pos hcomplete]
    exact ⟨rfl, rfl⟩

theorem discover_of_delivers {packets : List Packet} {tail : Bytes}
    (htail : tail.length < frameSize) {r : ρ}
    (hr : Delivers r (packetBytes packets ++ tail)) :
    (discover r).value.1 =
      match Survey.fresh.find? packets with
      | some d => .ok d
      | none => .error (.discovery .programMap) := by
  have hrun := run_of_delivers htail hr Survey.fresh #[]
  unfold discover
  rw [Logged.value_bind, Pass.start]
  cases hfound : Survey.fresh.find? packets with
  | some d =>
      rw [hfound] at hrun
      rw [hrun.left, ← hrun.right]
      rfl
  | none =>
      rw [hfound] at hrun
      rw [hrun]
      rfl

def mapWithStreams : Discovery :=
  ⟨.ofList [0x01F0], .ofList [0x01F0], .ofList [0x0010, 0x01F0, 0x0100, 0x0110]⟩

theorem discover_announcedLate {tail : Bytes} (htail : tail.length < frameSize)
    {r : ρ} (hr : Delivers r (packetBytes announcedLate ++ tail)) :
    (discover r).value.1 = .ok mapWithStreams := by
  have hfind : Survey.fresh.find? announcedLate = some mapWithStreams := by
    decide +kernel
  rw [discover_of_delivers htail hr, hfind]

theorem discover_finds_late_map :
    exists r', (discover (Feed.ofBytes (packetBytes announcedLate))).value =
        (.ok mapWithStreams, r') ∧
      exists packets,
        Reader.Reads (Feed.ofBytes (packetBytes announcedLate)) packets r' ∧
        mapWithStreams.pmtPids.toList ≠ [] ∧
        (forall pid, pid ∈ mapWithStreams.pmtPids.toList ↔
          exists a, a ∈ announced (patPackets packets) ∧
            a.program ≠ 0 ∧ a.pid ≠ oneSegmentPid ∧ a.pid = pid) ∧
        mapWithStreams.resolved = mapWithStreams.pmtPids ∧
        (forall pid, pid ∈ mapWithStreams.pmtPids.toList ->
          exists t, firstMap? pid packets = some t) ∧
        (forall n, n ∈ mapWithStreams.keep.toList ↔
          (exists a, a ∈ announced (patPackets packets) ∧ a.program = 0 ∧
            a.pid = n) ∨
            exists pid t, pid ∈ mapWithStreams.pmtPids.toList ∧
              firstMap? pid packets = some t ∧
              (n = pid ∨ n = t.clockPid ∨ exists s, s ∈ t.streams ∧
                s.pid = n)) := by
  have hr := Feed.delivers_packetBytes announcedLate
  have hfound := discover_announcedLate (by decide) hr
  have hvalue : (discover (Feed.ofBytes (packetBytes announcedLate))).value =
      (.ok mapWithStreams,
        (discover (Feed.ofBytes (packetBytes announcedLate))).value.2) :=
    Prod.ext hfound rfl
  exact ⟨_, hvalue, discover_finds_first_maps hvalue⟩

end TransportStream
