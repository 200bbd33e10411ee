import TransportStream.Proofs.Delay.Streams
import TransportStream.Proofs.Discovery
import TransportStream.Proofs.Pass.Earliest

/-!
# Searches for programs stop as early as they can

Discovery looks whether it is complete behind every packet, and so does the
search for the streams that are measured.  Both read whole packets up to the
first one that is enough, and what follows it does not matter.
-/

namespace TransportStream

def Survey.complete? (s : Survey) : Option Discovery :=
  if s.found.isComplete then some s.found else none

theorem Survey.isSome_complete? (s : Survey) :
    s.complete?.isSome = s.found.isComplete := by
  unfold complete?
  cases s.found.isComplete with
  | false => rfl
  | true => rfl

theorem Survey.seeks_complete? :
    Pass.Seeks step next fun s => s.complete?.isSome := by
  simp only [isSome_complete?]
  exact seeks_complete

section Outcomes

variable {ρ : Type} [FiniteSource ρ]

theorem discover_eq_outcome (r : ρ) :
    (discover r).value =
      ((Pass.run Survey.step r Survey.fresh #[]).value.outcome Survey.complete?
          (.discovery .programMap),
        (Pass.run Survey.step r Survey.fresh #[]).value.source) := by
  have hopen : Survey.fresh.found.isComplete = false := rfl
  rcases Survey.seeks_complete.found_run hopen r #[] with
    ⟨hsatisfied, hexhausted⟩
  unfold discover Pass.outcome Survey.complete?
  rw [Logged.value_bind, Pass.start]
  cases hending : (Pass.run Survey.step r Survey.fresh #[]).value.ending with
  | satisfied =>
      rw [if_pos (hsatisfied hending)]
      rfl
  | exhausted =>
      rw [if_neg (Bool.eq_false_iff.mp (hexhausted hending))]
      rfl
  | failed e => rfl

theorem AvPids.find_eq_outcome (r : ρ) :
    (find r).value =
      ((Pass.run Search.step r Search.fresh #[]).value.outcome (·.known.pids?)
          (.discovery .audioVideoProgram),
        (Pass.run Search.step r Search.fresh #[]).value.source) := by
  unfold find Pass.outcome Search.result
  rw [Logged.value_bind, Pass.start]
  beta_reduce
  cases (Pass.run Search.step r Search.fresh #[]).value.ending with
  | satisfied =>
      cases (Pass.run Search.step r Search.fresh
        #[]).value.state.known.pids? with
      | none => rfl
      | some pids => rfl
  | exhausted =>
      cases (Pass.run Search.step r Search.fresh
        #[]).value.state.known.pids? with
      | none => rfl
      | some pids => rfl
  | failed e => rfl

end Outcomes

/-- Discovery that succeeds, and so a search for streams, has read a positive
number of frames.  Whatever comes behind the bytes read, it returns the same and
reads as far; with fewer of them it finds nothing.  The portions and
interruptions may differ each time. -/
theorem searches_stop_at_first_packet_that_is_enough {bytes : Bytes} {f : Feed}
    (hf : f.Whole bytes) :
    (forall d f', (discover f).value = (.ok d, f') ->
        StopsEarliest discover (.discovery .programMap) bytes d f'.position) ∧
      (forall pids f', (AvPids.find f).value = (.ok pids, f') ->
        StopsEarliest AvPids.find (.discovery .audioVideoProgram) bytes pids
          f'.position) := by
  constructor
  · intro d f' hok
    exact Survey.seeks_complete?.stopsEarliest rfl discover_eq_outcome hf hok
  · intro pids f' hok
    exact AvPids.Search.seeks_pids.stopsEarliest rfl
      AvPids.find_eq_outcome hf hok

def announcedOnce : List Packet :=
  [mapPacket, mixedStart, mixedRest, mapPacket]

theorem firstAnswer_complete :
    FirstAnswer Survey.next Survey.complete? .fresh announcedOnce
      mapWithStreams := by
  refine .later ?_ (.later ?_ (.later ?_ (.last ?_)))
  all_goals decide +kernel

theorem firstAnswer_pids :
    FirstAnswer AvPids.Search.next (·.known.pids?) .fresh announcedOnce
      ⟨0x0110, 0x0100⟩ := by
  refine .later ?_ (.later ?_ (.later ?_ (.last ?_)))
  all_goals decide +kernel

theorem searches_stop_in_announcedLate :
    exists f f', (discover (Feed.ofBytes (packetBytes announcedLate))).value =
        (.ok mapWithStreams, f) ∧
      (AvPids.find (Feed.ofBytes (packetBytes announcedLate))).value =
        (.ok ⟨0x0110, 0x0100⟩, f') ∧
      StopsEarliest discover (.discovery .programMap)
        (packetBytes announcedLate) mapWithStreams 752 ∧
      StopsEarliest AvPids.find (.discovery .audioVideoProgram)
        (packetBytes announcedLate) ⟨0x0110, 0x0100⟩ 752 := by
  have hwhole := Feed.whole_ofBytes (packetBytes announcedLate)
  have hbytes : packetBytes announcedLate =
      packetBytes announcedOnce ++ packetBytes [flaggedPacket] :=
    packetBytes_append announcedOnce [flaggedPacket]
  have hf := hwhole
  rw [hbytes] at hf
  rcases Survey.seeks_complete?.search_of_firstAnswer discover_eq_outcome
    firstAnswer_complete hf
    with ⟨f, hfound, hposition⟩
  rcases AvPids.Search.seeks_pids.search_of_firstAnswer AvPids.find_eq_outcome
    firstAnswer_pids hf
    with ⟨f', hfound', hposition'⟩
  rw [← hbytes] at hfound hfound'
  rw [length_packetBytes] at hposition hposition'
  rcases searches_stop_at_first_packet_that_is_enough hwhole with
    ⟨hdiscover, hfind⟩
  refine ⟨f, f', hfound, hfound', ?_, ?_⟩
  · have hstops := hdiscover _ _ hfound
    rw [hposition] at hstops
    exact hstops
  · have hstops := hfind _ _ hfound'
    rw [hposition'] at hstops
    exact hstops

end TransportStream
