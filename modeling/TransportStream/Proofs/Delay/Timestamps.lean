import TransportStream.Delay.Timestamps
import TransportStream.Proofs.Packet.Payload
import TransportStream.Proofs.Pass.Reads
import TransportStream.Proofs.Pes.Events

/-!
# The first timestamps

A search for the first timestamps follows two streams at a time, each of them
until its timestamp is known, and is over with the packet that makes both known.
Neither this nor the way in which the streams are interleaved can be told from
the timestamps: they are those that the two streams have by themselves.
-/

namespace TransportStream

theorem foldl_of_project {σ α : Type} (project : σ -> α)
    {next : σ -> Packet -> σ} {change : α -> Packet -> α}
    {keep : Packet -> Bool}
    (hkeep : forall s p, keep p = true ->
      project (next s p) = change (project s) p)
    (hother : forall s p, keep p = false -> project (next s p) = project s)
    (s : σ) (packets : List Packet) :
    project (packets.foldl next s) =
      (packets.filter keep).foldl change (project s) := by
  induction packets generalizing s with
  | nil => rfl
  | cons p packets ih =>
      rw [List.foldl_cons, ih]
      cases hp : keep p with
      | true => rw [List.filter_cons_of_pos hp, List.foldl_cons, hkeep s p hp]
      | false => rw [List.filter_cons_of_neg (by simp [hp]), hother s p hp]

/-!
## The timestamp of a stream
-/

namespace Pes

def Event.pts? : Event -> Option Timestamp
  | .header fields => fields.pts
  | .data _ => none

def firstPts? (events : List Event) : Option Timestamp :=
  events.findSome? Event.pts?

theorem firstPts?_cons (e : Event) (events : List Event) :
    firstPts? (e :: events) = e.pts?.or (firstPts? events) := by
  rw [firstPts?, List.findSome?_cons]
  cases e.pts? with
  | none => rfl
  | some pts => rfl

end Pes

theorem AudioWatch.pts_see (w : AudioWatch) (e : Pes.Event) :
    (w.see e).value.pts = w.pts.or e.pts? := by
  unfold see
  cases hw : w.pts with
  | some known => exact hw
  | none =>
      cases e with
      | data bytes => exact hw
      | header header =>
          rw [Pes.Event.pts?, Option.none_or]
          cases hpts : header.pts with
          | none =>
              dsimp only
              rw [hpts]
              exact hw
          | some pts =>
              dsimp only
              rw [hpts]
              rfl

theorem AudioWatch.pts_foldl_see (w : AudioWatch) (events : List Pes.Event) :
    (events.foldl (fun w e => (see w e).value) w).pts =
      w.pts.or (Pes.firstPts? events) := by
  induction events generalizing w with
  | nil => exact (Option.or_none).symm
  | cons e events ih =>
      rw [List.foldl_cons, ih, pts_see, Pes.firstPts?_cons, Option.or_assoc]

def VideoWatch.firstPts? (events : List Pes.Event) : Option Timestamp :=
  (events.foldl (fun w e => (see w e).value) fresh).pts

theorem AudioWatch.see_of_known {w : AudioWatch} (h : w.pts ≠ none)
    (e : Pes.Event) :
    (w.see e).value = w := by
  unfold see
  cases hw : w.pts with
  | none => exact absurd hw h
  | some pts => rfl

theorem VideoWatch.see_of_known {w : VideoWatch} (h : w.pts ≠ none)
    (e : Pes.Event) :
    (w.see e).value = w := by
  unfold see
  cases hw : w.pts with
  | none => exact absurd hw h
  | some pts => rfl

section Follow

variable {ω : Type} {pts : ω -> Option Timestamp}
  {see : ω -> Pes.Event -> Logged ω}

/-- A packet of a stream that is watched, as long as no timestamp is known. -/
def followUnknown (pts : ω -> Option Timestamp)
    (see : ω -> Pes.Event -> Logged ω) (stream : Pes.Assembler × ω)
    (p : Packet) : Pes.Assembler × ω :=
  if pts stream.2 = none then
    ((stream.1.submit p).value.1,
      (stream.1.submit p).value.2.foldl (fun w e => (see w e).value) stream.2)
  else stream

theorem foldl_see_of_known
    (hsee : forall w e, pts w ≠ none -> (see w e).value = w) {w : ω}
    (h : pts w ≠ none) (events : List Pes.Event) :
    events.foldl (fun w e => (see w e).value) w = w := by
  induction events with
  | nil => rfl
  | cons e events ih => rw [List.foldl_cons, hsee w e h, ih]

/-- That a stream is not followed any further does not change what its watch has
seen. -/
theorem watch_foldl_followUnknown
    (hsee : forall w e, pts w ≠ none -> (see w e).value = w)
    (units : Pes.Assembler) (w : ω) (packets : List Packet) :
    (packets.foldl (followUnknown pts see) (units, w)).2 =
      (units.feed packets).2.foldl (fun w e => (see w e).value) w := by
  induction packets generalizing units w with
  | nil => rfl
  | cons p packets ih =>
      rw [List.foldl_cons, Pes.Assembler.feed_cons]
      cases hpts : pts w with
      | some known =>
          have hknown : pts w ≠ none := by simp [hpts]
          have hsame : followUnknown pts see (units, w) p = (units, w) :=
            if_neg hknown
          rw [hsame, ih, foldl_see_of_known hsee hknown,
            foldl_see_of_known hsee hknown]
      | none =>
          have hfollow : followUnknown pts see (units, w) p =
              ((units.submit p).value.1,
                (units.submit p).value.2.foldl
                  (fun w e => (see w e).value) w) :=
            if_pos hpts
          rw [hfollow, ih, List.foldl_append]

end Follow

def followAudio :
    Pes.Assembler × AudioWatch -> Packet -> Pes.Assembler × AudioWatch :=
  followUnknown AudioWatch.pts AudioWatch.see

def followVideo :
    Pes.Assembler × VideoWatch -> Packet -> Pes.Assembler × VideoWatch :=
  followUnknown VideoWatch.pts VideoWatch.see

theorem pts_foldl_followAudio (packets : List Packet) :
    (packets.foldl followAudio (.idle, .fresh)).2.pts =
      Pes.firstPts? (Pes.Assembler.idle.feed packets).2 := by
  have hwatch :=
    watch_foldl_followUnknown (fun w e h => AudioWatch.see_of_known h e)
    .idle .fresh packets
  rw [followAudio, hwatch, AudioWatch.pts_foldl_see]
  exact Option.none_or

theorem pts_foldl_followVideo (packets : List Packet) :
    (packets.foldl followVideo (.idle, .fresh)).2.pts =
      VideoWatch.firstPts? (Pes.Assembler.idle.feed packets).2 := by
  have hwatch :=
    watch_foldl_followUnknown (fun w e h => VideoWatch.see_of_known h e)
    .idle .fresh packets
  rw [followVideo, hwatch, VideoWatch.firstPts?]

namespace AvTimestamps
namespace Search

variable {pids : AvPids}

def next (pids : AvPids) (s : Search) (p : Packet) : Search :=
  (advance pids s p).value

theorem seeks_timestamps (pids : AvPids) :
    Pass.Seeks (step pids) (next pids) (·.timestamps?.isSome) :=
  fun _ _ => rfl

/-!
## Two streams at a time
-/

def audioStream (s : Search) : Pes.Assembler × AudioWatch :=
  (s.audioUnits, s.audio)

def videoStream (s : Search) : Pes.Assembler × VideoWatch :=
  (s.videoUnits, s.video)

theorem eq_of_streams {s s' : Search} (haudio : audioStream s = audioStream s')
    (hvideo : videoStream s = videoStream s') : s = s' := by
  cases s
  cases s'
  cases haudio
  cases hvideo
  rfl

theorem next_of_audio {s : Search} {p : Packet} (hp : p.pid = pids.audio)
    (hpts : s.audio.pts = none) :
    next pids s p =
      ⟨(followAudio (audioStream s) p).1, s.videoUnits,
        (followAudio (audioStream s) p).2, s.video⟩ := by
  have hfollow : followAudio (audioStream s) p =
      ((s.audioUnits.submit p).value.1,
        (s.audioUnits.submit p).value.2.foldl
          (fun w e => (AudioWatch.see w e).value) s.audio) :=
    if_pos hpts
  rw [next, advance, if_pos ⟨hp, hpts⟩, hfollow]
  simp only [Logged.value_bind, Logged.value_pure, Logged.value_foldlM]

theorem next_of_video {s : Search} {p : Packet} (hp : p.pid = pids.video)
    (hne : pids.audio ≠ pids.video) (hpts : s.video.pts = none) :
    next pids s p =
      ⟨s.audioUnits, (followVideo (videoStream s) p).1, s.audio,
        (followVideo (videoStream s) p).2⟩ := by
  have hnot : ¬ (p.pid = pids.audio ∧ s.audio.pts = none) := by
    intro h
    exact hne (h.left.symm.trans hp)
  have hfollow : followVideo (videoStream s) p =
      ((s.videoUnits.submit p).value.1,
        (s.videoUnits.submit p).value.2.foldl
          (fun w e => (VideoWatch.see w e).value) s.video) :=
    if_pos hpts
  rw [next, advance, if_neg hnot, if_pos ⟨hp, hpts⟩, hfollow]
  simp only [Logged.value_bind, Logged.value_pure, Logged.value_foldlM]

theorem audioStream_next_of_not {s : Search} {p : Packet}
    (h : ¬ (p.pid = pids.audio ∧ s.audio.pts = none)) :
    audioStream (next pids s p) = audioStream s := by
  rw [next, advance, if_neg h]
  split
  · simp only [Logged.value_bind, Logged.value_pure]
    rfl
  · rfl

theorem videoStream_next_of_not {s : Search} {p : Packet}
    (h : ¬ (p.pid = pids.video ∧ s.video.pts = none)) :
    videoStream (next pids s p) = videoStream s := by
  rw [next, advance, if_neg h]
  split
  · simp only [Logged.value_bind, Logged.value_pure]
    rfl
  · rfl

theorem next_of_other {s : Search} {p : Packet} (haudio : p.pid ≠ pids.audio)
    (hvideo : p.pid ≠ pids.video) : next pids s p = s := by
  apply eq_of_streams
  · exact audioStream_next_of_not (fun h => haudio h.left)
  · exact videoStream_next_of_not (fun h => hvideo h.left)

theorem audioStream_foldl (pids : AvPids) (s : Search) (packets : List Packet) :
    audioStream (packets.foldl (next pids) s) =
      (packets.filter (·.pid = pids.audio)).foldl followAudio
        (audioStream s) := by
  apply foldl_of_project audioStream
  · intro s p hp
    cases hpts : s.audio.pts with
    | none =>
        rw [next_of_audio (of_decide_eq_true hp) hpts]
        rfl
    | some pts =>
        have hknown : ¬ s.audio.pts = none := by simp [hpts]
        have hsame : followAudio (audioStream s) p = audioStream s :=
          if_neg hknown
        rw [hsame, audioStream_next_of_not (fun h => hknown h.right)]
  · intro s p hp
    exact audioStream_next_of_not (fun h => of_decide_eq_false hp h.left)

theorem videoStream_foldl (hne : pids.audio ≠ pids.video) (s : Search)
    (packets : List Packet) :
    videoStream (packets.foldl (next pids) s) =
      (packets.filter (·.pid = pids.video)).foldl followVideo
        (videoStream s) := by
  apply foldl_of_project videoStream
  · intro s p hp
    cases hpts : s.video.pts with
    | none =>
        rw [next_of_video (of_decide_eq_true hp) hne hpts]
        rfl
    | some pts =>
        have hknown : ¬ s.video.pts = none := by simp [hpts]
        have hsame : followVideo (videoStream s) p = videoStream s :=
          if_neg hknown
        rw [hsame, videoStream_next_of_not (fun h => hknown h.right)]
  · intro s p hp
    exact videoStream_next_of_not (fun h => of_decide_eq_false hp h.left)

theorem foldl_next_of_same (hsame : pids.audio = pids.video) (s : Search)
    (packets : List Packet) :
    packets.foldl (next pids) s =
      (packets.filter (·.pid = pids.audio)).foldl (next pids) s := by
  apply foldl_of_project id
  · intro s p _
    rfl
  · intro s p hp
    have haudio := of_decide_eq_false hp
    have hvideo : p.pid ≠ pids.video := by
      rw [← hsame]
      exact haudio
    exact next_of_other haudio hvideo

theorem foldl_next_congr {packets packets' : List Packet}
    (haudio : packets.filter (·.pid = pids.audio) =
      packets'.filter (·.pid = pids.audio))
    (hvideo : packets.filter (·.pid = pids.video) =
      packets'.filter (·.pid = pids.video))
    (s : Search) :
    packets.foldl (next pids) s = packets'.foldl (next pids) s := by
  cases hsame : decide (pids.audio = pids.video) with
  | true =>
      have hpids := of_decide_eq_true hsame
      rw [foldl_next_of_same hpids, foldl_next_of_same hpids s packets', haudio]
  | false =>
      have hne := of_decide_eq_false hsame
      apply eq_of_streams
      · rw [audioStream_foldl, audioStream_foldl, haudio]
      · rw [videoStream_foldl hne, videoStream_foldl hne, hvideo]

/-!
## All packets
-/

theorem timestamps?_eq_some_iff {s : Search} {t : AvTimestamps} :
    s.timestamps? = some t ↔
      s.audio.pts = some t.audio ∧ s.video.pts = some t.video := by
  unfold timestamps?
  cases s.audio.pts with
  | none => simp
  | some audio =>
      cases s.video.pts with
      | none => simp
      | some video =>
          cases t
          simp

theorem result_eq_ok_iff {s : Search} {t : AvTimestamps} :
    s.result = .ok t ↔ s.timestamps? = some t := by
  unfold result
  cases s.timestamps? with
  | none => simp
  | some found => simp

theorem foldl_next_of_known {s : Search} (h : s.timestamps?.isSome)
    (packets : List Packet) :
    packets.foldl (next pids) s = s := by
  rcases Option.isSome_iff_exists.mp h with ⟨t, ht⟩
  rcases timestamps?_eq_some_iff.mp ht with ⟨haudio, hvideo⟩
  induction packets with
  | nil => rfl
  | cons p packets ih =>
      have hsame : next pids s p = s := by
        apply eq_of_streams
        · exact audioStream_next_of_not
            (fun hnone => by cases haudio.symm.trans hnone.right)
        · exact videoStream_next_of_not
            (fun hnone => by cases hvideo.symm.trans hnone.right)
      rw [List.foldl_cons, hsame]
      exact ih

theorem state_run_of_delivers {ρ : Type} [FiniteSource ρ] (pids : AvPids)
    {packets : List Packet} {tail : Bytes} (htail : tail.length < frameSize)
    {r : ρ} (hr : Delivers r (packetBytes packets ++ tail)) (s : Search)
    (log : Log) :
    (forall e, (Pass.run (step pids) r s log).value.ending ≠ .failed e) ∧
      (Pass.run (step pids) r s log).value.state =
        packets.foldl (next pids) s := by
  refine (seeks_timestamps pids).delivers_induction
    (motive := fun packets s pass =>
    (forall e, pass.ending ≠ .failed e) ∧
    pass.state = packets.foldl (next pids) s)
    ?_ ?_ ?_ htail hr s log
  · intro s r
    constructor
    · intro e hfailed
      cases hfailed
    · rfl
  · intro p packets s pass _ ih
    exact ih
  · intro p packets s r hknown
    rw [List.foldl_cons, foldl_next_of_known hknown]
    constructor
    · intro e hfailed
      cases hfailed
    · rfl

end Search

open Search

variable {ρ ρ' : Type} [FiniteSource ρ] [FiniteSource ρ']

theorem find_of_delivers {packets : List Packet} {tail : Bytes}
    (htail : tail.length < frameSize) {r : ρ}
    (hr : Delivers r (packetBytes packets ++ tail)) (pids : AvPids) :
    (find r pids).value.1 = (packets.foldl (next pids) .fresh).result := by
  rcases state_run_of_delivers pids htail hr .fresh #[] with ⟨hending, hstate⟩
  unfold find
  rw [Logged.value_bind, Pass.start, ← hstate]
  cases hrun : (Pass.run (step pids) r .fresh #[]).value.ending with
  | satisfied => rfl
  | exhausted => rfl
  | failed e => exact absurd hrun (hending e)

theorem pts_audio_foldl_next (pids : AvPids) (packets : List Packet) :
    (packets.foldl (next pids) .fresh).audio.pts =
      Pes.firstPts? (Pes.Assembler.idle.feed
        (packets.filter (·.pid = pids.audio))).2 := by
  have hstream := audioStream_foldl pids .fresh packets
  rw [← pts_foldl_followAudio]
  exact congrArg (fun stream => stream.2.pts) hstream

theorem pts_video_foldl_next {pids : AvPids} (hne : pids.audio ≠ pids.video)
    (packets : List Packet) :
    (packets.foldl (next pids) .fresh).video.pts =
      VideoWatch.firstPts?
        (Pes.Assembler.idle.feed (packets.filter (·.pid = pids.video))).2 := by
  have hstream := videoStream_foldl hne .fresh packets
  rw [← pts_foldl_followVideo]
  exact congrArg (fun stream => stream.2.pts) hstream

theorem result_foldl_next (pids : AvPids) (packets : List Packet) :
    (exists t, (packets.foldl (next pids) .fresh).result = .ok t ∧
      Pes.firstPts?
        (Pes.Assembler.idle.feed (packets.filter (·.pid = pids.audio))).2 =
        some t.audio) ∨
      (packets.foldl (next pids) .fresh).result =
        .error (.discovery .timestamps) := by
  cases htimes : (packets.foldl (next pids) .fresh).timestamps? with
  | none =>
      refine .inr ?_
      rw [result, htimes]
  | some t =>
      refine .inl ⟨t, result_eq_ok_iff.mpr htimes, ?_⟩
      rw [← pts_audio_foldl_next]
      exact (timestamps?_eq_some_iff.mp htimes).left

theorem result_foldl_next_eq_ok_iff {pids : AvPids}
    (hne : pids.audio ≠ pids.video) (packets : List Packet) (t : AvTimestamps) :
    (packets.foldl (next pids) .fresh).result = .ok t ↔
      Pes.firstPts?
        (Pes.Assembler.idle.feed (packets.filter (·.pid = pids.audio))).2 =
          some t.audio ∧
        VideoWatch.firstPts?
          (Pes.Assembler.idle.feed (packets.filter (·.pid = pids.video))).2 =
          some t.video := by
  rw [result_eq_ok_iff, timestamps?_eq_some_iff, pts_audio_foldl_next,
    pts_video_foldl_next hne]

/-- The timestamps found depend on the packets of the two streams alone, and not
on how these are interleaved or on what stands between them.  The one found for
audio is that of the first header with a timestamp in the whole audio stream.
Streams on two identifiers have both found exactly if each of them has its
own. -/
theorem find_follows_streams_apart {r : ρ} {r' : ρ'}
    {packets packets' : List Packet} {tail tail' : Bytes}
    (hr : Delivers r (packetBytes packets ++ tail))
    (htail : tail.length < frameSize)
    (hr' : Delivers r' (packetBytes packets' ++ tail'))
    (htail' : tail'.length < frameSize) (pids : AvPids)
    (haudio : packets.filter (·.pid = pids.audio) =
      packets'.filter (·.pid = pids.audio))
    (hvideo : packets.filter (·.pid = pids.video) =
      packets'.filter (·.pid = pids.video)) :
    (find r pids).value.1 = (find r' pids).value.1 ∧
      ((exists t, (find r pids).value.1 = .ok t ∧
        Pes.firstPts?
          (Pes.Assembler.idle.feed (packets.filter (·.pid = pids.audio))).2 =
          some t.audio) ∨
        (find r pids).value.1 = .error (.discovery .timestamps)) ∧
      (pids.audio ≠ pids.video -> forall t, (find r pids).value.1 = .ok t ↔
        Pes.firstPts?
          (Pes.Assembler.idle.feed (packets.filter (·.pid = pids.audio))).2 =
            some t.audio ∧
          VideoWatch.firstPts?
              (Pes.Assembler.idle.feed
                (packets.filter (·.pid = pids.video))).2 =
            some t.video) := by
  rw [find_of_delivers htail hr, find_of_delivers htail' hr']
  refine ⟨?_, result_foldl_next pids packets, ?_⟩
  · rw [foldl_next_congr haudio hvideo]
  · intro hne
    exact result_foldl_next_eq_ok_iff hne packets

/-!
## One program, interleaved in two ways
-/

def untimedAudio : Packet :=
  .padded 0x41 0x10 0x10 [0x00, 0x00, 0x01, 0xC0, 0x00, 0x00, 0x80, 0x00, 0x00]

def timedAudio : Packet :=
  .padded 0x41 0x10 0x11
    [0x00, 0x00, 0x01, 0xC0, 0x00, 0x00, 0x80, 0x80, 0x05, 0x21, 0x00, 0x05,
      0xBF, 0x21]

def timedVideo : Packet :=
  .padded 0x41 0x00 0x10
    [0x00, 0x00, 0x01, 0xE0, 0x00, 0x00, 0x84, 0x80, 0x05, 0x21, 0x00, 0x05,
      0xD6, 0x91, 0x00, 0x00, 0x01, 0xB3]

def videoAhead : List Packet :=
  [timedVideo, untimedAudio, timedVideo, timedAudio]

def audioAhead : List Packet :=
  [untimedAudio, timedAudio, mapPacket, timedVideo, timedVideo]

theorem find_follows_interleaved_streams :
    Delivers (Feed.ofBytes (packetBytes videoAhead))
      (packetBytes videoAhead ++ []) ∧
      Delivers (Feed.ofBytes (packetBytes audioAhead))
        (packetBytes audioAhead ++ []) ∧
      ([] : Bytes).length < frameSize ∧
      videoAhead.filter (·.pid = 0x0110) = audioAhead.filter (·.pid = 0x0110) ∧
      videoAhead.filter (·.pid = 0x0100) = audioAhead.filter (·.pid = 0x0100) ∧
      (find (Feed.ofBytes (packetBytes videoAhead)) ⟨0x0110, 0x0100⟩).value.1 =
        .ok ⟨90000, 93000⟩ ∧
      (find (Feed.ofBytes (packetBytes audioAhead)) ⟨0x0110, 0x0100⟩).value.1 =
        .ok ⟨90000, 93000⟩ := by
  have hr := Feed.delivers_packetBytes videoAhead
  have hr' := Feed.delivers_packetBytes audioAhead
  have htail : ([] : Bytes).length < frameSize := by decide
  have haudio : videoAhead.filter (·.pid = 0x0110) =
      audioAhead.filter (·.pid = 0x0110) := by
    decide +kernel
  have hvideo : videoAhead.filter (·.pid = 0x0100) =
      audioAhead.filter (·.pid = 0x0100) := by
    decide +kernel
  have haudioPts : Pes.firstPts?
      (Pes.Assembler.idle.feed (videoAhead.filter (·.pid = 0x0110))).2 =
        some 90000 := by
    decide +kernel
  have hvideoPts : VideoWatch.firstPts?
      (Pes.Assembler.idle.feed (videoAhead.filter (·.pid = 0x0100))).2 =
        some 93000 := by
    decide +kernel
  rcases find_follows_streams_apart hr htail hr' htail ⟨0x0110, 0x0100⟩ haudio
    hvideo with
    ⟨hsame, -, hfound⟩
  have hfirst := (hfound (by decide) ⟨90000, 93000⟩).mpr ⟨haudioPts, hvideoPts⟩
  exact ⟨hr, hr', htail, haudio, hvideo, hfirst, hsame.symm.trans hfirst⟩

end AvTimestamps
end TransportStream
