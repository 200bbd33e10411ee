import TransportStream.Delay
import TransportStream.Proofs.Delay.Streams
import TransportStream.Proofs.Delay.Timestamps
import TransportStream.Proofs.Discovery
import TransportStream.Proofs.Filter.Output
import TransportStream.Proofs.Pass.Agreement
import TransportStream.Proofs.Source.Replay
import TransportStream.Sink.Tray
import TransportStream.Split

/-!
# Two passes over one source

Splitting a stream and measuring its delay read the source twice: once to find
out what to look for, and once more from the first byte.  Since the first pass
is recorded and its replay delivers the same bytes again, both passes give what
they give over sources of their own.
-/

namespace TransportStream

variable {ρ ρ' κ : Type} [FiniteSource ρ] [FiniteSource ρ'] [Sink κ]

section SameBytes

variable {r : ρ} {r' : ρ'} {bytes : Bytes}

theorem discover_agrees (h : Delivers r bytes) (h' : Delivers r' bytes) :
    (discover r).value.1 = (discover r').value.1 := by
  rcases Pass.run_agrees Survey.step h h' Survey.fresh #[] #[] with
    ⟨hending, hstate⟩
  unfold discover
  simp only [Logged.value_bind, Pass.start, hending, hstate]
  cases (Pass.run Survey.step r' Survey.fresh #[]).value.ending with
  | satisfied => rfl
  | exhausted => rfl
  | failed e => rfl

theorem filter_agrees (h : Delivers r bytes) (h' : Delivers r' bytes)
    (d : Discovery) (k : κ) :
    (filter d r k).value = (filter d r' k).value := by
  rcases Pass.run_agrees (Filter.stepInto d) h h' (Filter.State.initial, ⟨k, 0⟩)
    #[] #[] with
    ⟨hending, hstate⟩
  unfold filter
  simp only [Logged.value_bind, Pass.start, hending, hstate]

theorem find_pids_agrees (h : Delivers r bytes) (h' : Delivers r' bytes) :
    (AvPids.find r).value.1 = (AvPids.find r').value.1 := by
  rcases Pass.run_agrees AvPids.Search.step h h' AvPids.Search.fresh
    #[] #[] with
    ⟨hending, hstate⟩
  unfold AvPids.find
  simp only [Logged.value_bind, Pass.start, hending, hstate]
  cases (Pass.run AvPids.Search.step r' AvPids.Search.fresh
    #[]).value.ending with
  | satisfied => rfl
  | exhausted => rfl
  | failed e => rfl

theorem find_timestamps_agrees (h : Delivers r bytes) (h' : Delivers r' bytes)
    (pids : AvPids) :
    (AvTimestamps.find r pids).value.1 =
      (AvTimestamps.find r' pids).value.1 := by
  rcases Pass.run_agrees (AvTimestamps.Search.step pids) h h'
    AvTimestamps.Search.fresh #[] #[]
    with ⟨hending, hstate⟩
  unfold AvTimestamps.find
  simp only [Logged.value_bind, Pass.start, hending, hstate]
  cases (Pass.run (AvTimestamps.Search.step pids) r' AvTimestamps.Search.fresh
      #[]).value.ending with
  | satisfied => rfl
  | exhausted => rfl
  | failed e => rfl

end SameBytes

/-!
## What the first pass leaves
-/

variable {r : ρ} {bytes : Bytes}

theorem keeps_run {σ : Type} (step : σ -> Packet -> Logged (Flow σ))
    (h : Delivers r bytes) (s : σ) :
    ((Pass.run step (Recorder.ofSource r) s #[]).value.source).Keeps bytes := by
  apply Pass.source_run
  · intro recorder n hn hkeeps
    exact Recorder.keeps_read hkeeps hn
  · exact Recorder.keeps_ofSource h

theorem keeps_discover (h : Delivers r bytes) :
    ((discover (Recorder.ofSource r)).value.2).Keeps bytes := by
  have hkeeps := keeps_run Survey.step h Survey.fresh
  unfold discover
  rw [Logged.value_bind, Pass.start]
  cases (Pass.run Survey.step (Recorder.ofSource r) Survey.fresh
    #[]).value.ending with
  | satisfied => exact hkeeps
  | exhausted => exact hkeeps
  | failed e => exact hkeeps

theorem keeps_find (h : Delivers r bytes) :
    ((AvPids.find (Recorder.ofSource r)).value.2).Keeps bytes := by
  have hkeeps := keeps_run AvPids.Search.step h AvPids.Search.fresh
  unfold AvPids.find
  rw [Logged.value_bind, Pass.start]
  cases (Pass.run AvPids.Search.step (Recorder.ofSource r) AvPids.Search.fresh
      #[]).value.ending with
  | satisfied => exact hkeeps
  | exhausted => exact hkeeps
  | failed e => exact hkeeps

/-!
## Both passes
-/

theorem split_of_delivers (h : Delivers r bytes) (k : κ) :
    (split r k).value =
      match (discover (Feed.ofBytes bytes)).value.1 with
      | .error e => (.error e, k)
      | .ok d => (filter d (Feed.ofBytes bytes) k).value := by
  have hfresh := Feed.delivers_ofBytes bytes
  have hkeeps := keeps_discover h
  have hfirst := discover_agrees (Recorder.delivers_ofSource h) hfresh
  unfold split
  rw [Logged.value_bind, ← hfirst]
  cases hfound : (discover (Recorder.ofSource r)).value with
  | mk found recorder =>
      rw [hfound] at hkeeps
      cases found with
      | error e => rfl
      | ok d =>
          show (filter d recorder.replay k).value =
              (filter d (Feed.ofBytes bytes) k).value
          exact filter_agrees (Recorder.delivers_replay hkeeps) hfresh d k

theorem measure_of_delivers (h : Delivers r bytes) :
    (Delay.measure r).value =
      match (AvPids.find (Feed.ofBytes bytes)).value.1 with
      | .error e => .error e
      | .ok pids =>
          (AvTimestamps.find (Feed.ofBytes bytes) pids).value.1.bind
            Delay.ofTimestamps := by
  have hfresh := Feed.delivers_ofBytes bytes
  have hkeeps := keeps_find h
  have hfirst := find_pids_agrees (Recorder.delivers_ofSource h) hfresh
  unfold Delay.measure
  rw [Logged.value_bind, ← hfirst]
  cases hfound : (AvPids.find (Recorder.ofSource r)).value with
  | mk found recorder =>
      rw [hfound] at hkeeps
      cases found with
      | error e => rfl
      | ok pids =>
          show (AvTimestamps.find recorder.replay pids).value.1.bind
            Delay.ofTimestamps = _
          rw [find_timestamps_agrees (Recorder.delivers_replay hkeeps)
            hfresh pids]

/-- Whatever portions and interruptions a source has, splitting it gives what
discovery and filtering give over sources of their own, each from the first byte
on, and the delay measured in it is that of the timestamps found in this way.
If discovery fails, nothing is written. -/
theorem both_passes_start_from_first_byte (h : Delivers r bytes) (k : κ) :
    (split r k).value =
        (match (discover (Feed.ofBytes bytes)).value.1 with
        | .error e => (.error e, k)
        | .ok d => (filter d (Feed.ofBytes bytes) k).value) ∧
      (Delay.measure r).value =
        (match (AvPids.find (Feed.ofBytes bytes)).value.1 with
        | .error e => .error e
        | .ok pids =>
            (AvTimestamps.find (Feed.ofBytes bytes) pids).value.1.bind
              Delay.ofTimestamps) := by
  constructor
  · exact split_of_delivers h k
  · exact measure_of_delivers h

/-!
## A stream whose video comes first

The first pass finds the program map behind a video unit.  The stream ends in
the beginning of another frame; it comes in portions of seven bytes and is
interrupted before, within and behind the tables.
-/

def videoFirst : List Packet :=
  AvTimestamps.timedVideo :: announcedLate ++ [AvTimestamps.timedAudio]

def hesitantFeed : Feed :=
  ⟨packetBytes videoFirst ++ [syncByte], 0, 7,
    [⟨0, some .interrupted⟩, ⟨500, some .interrupted⟩,
      ⟨1000, some .interrupted⟩]⟩

theorem both_passes_of_hesitant_feed :
    Delivers hesitantFeed (packetBytes videoFirst ++ [syncByte]) ∧
      (exists k' : Tray, (split hesitantFeed Tray.unlimited).value =
        (.ok ⟨7, 7, 1⟩, k') ∧
        Sink.contents k' =
          packetBytes (Filter.output mapWithStreams videoFirst)) ∧
      (Delay.measure hesitantFeed).value = .ok ⟨90000, 93000, 3000⟩ := by
  have h : Delivers hesitantFeed (packetBytes videoFirst ++ [syncByte]) := by
    apply Feed.delivers
    intro fault hfault
    simp only [hesitantFeed, List.mem_cons, List.not_mem_nil, or_false]
      at hfault
    rcases hfault with rfl | rfl | rfl
    · rfl
    · rfl
    · rfl
  have hfresh := Feed.delivers_ofBytes (packetBytes videoFirst ++ [syncByte])
  have htail : [syncByte].length < frameSize := by decide
  rcases both_passes_start_from_first_byte h Tray.unlimited with
    ⟨hsplit, hmeasure⟩
  refine ⟨h, ?_, ?_⟩
  · have hfind : Survey.fresh.find? videoFirst = some mapWithStreams := by
      decide +kernel
    rw [discover_of_delivers htail hfresh, hfind] at hsplit
    rcases filter_of_delivers hfresh htail
      (Tray.acceptsAll (t := .unlimited) rfl rfl)
      mapWithStreams with ⟨k', hfilter, hcontents⟩
    have hlength : (Filter.output mapWithStreams videoFirst).length = 7 := by
      decide +kernel
    have hreduced :
        (Filter.run mapWithStreams .initial videoFirst).1.patsReduced = 1 := by
      decide +kernel
    have hempty : Sink.contents Tray.unlimited = [] := rfl
    rw [hlength, hreduced] at hfilter
    rw [hempty, List.nil_append] at hcontents
    exact ⟨k', hsplit.trans hfilter, hcontents⟩
  · have hpids : (videoFirst.foldl AvPids.Search.next .fresh).result =
        .ok ⟨0x0110, 0x0100⟩ := by decide +kernel
    have htimes : (videoFirst.foldl (AvTimestamps.Search.next ⟨0x0110, 0x0100⟩)
        .fresh).result = .ok ⟨90000, 93000⟩ := by decide +kernel
    rw [AvPids.find_of_delivers htail hfresh, hpids] at hmeasure
    dsimp only at hmeasure
    rw [AvTimestamps.find_of_delivers htail hfresh, htimes] at hmeasure
    exact hmeasure

end TransportStream
