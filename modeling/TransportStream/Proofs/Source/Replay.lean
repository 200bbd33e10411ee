import TransportStream.Proofs.Source.Delivery
import TransportStream.Source.Recorder

/-!
# Delivery through a recorder and its replay

A recorder answers as the source behind it does, and the bytes that it has kept
are those that are missing from what its source still delivers.  Its replay
therefore delivers everything from the first byte on, whatever portions were
asked for before and are asked for then.
-/

namespace TransportStream

variable {ρ : Type} [Source ρ]

namespace Recorder

/-- What a recorder has kept and what its source still delivers make up a byte
string. -/
def Keeps (bytes : Bytes) (r : Recorder ρ) : Prop :=
  exists rest, bytes = r.recorded ++ rest ∧ Delivers r.source rest

theorem keeps_ofSource {r : ρ} {bytes : Bytes} (h : Delivers r bytes) :
    Keeps bytes (ofSource r) :=
  ⟨bytes, rfl, h⟩

theorem recorded_read_of_bytes {r : Recorder ρ} {n : Nat} {data : Bytes}
    (h : (Source.read r.source n).1 = .bytes data) :
    (r.read n).2.recorded = r.recorded ++ data := by
  unfold read
  split
  · rename_i data' source hread
    rw [hread] at h
    cases h
    simp [recorded]
  · rename_i failure source hread
    rw [hread] at h
    cases h

theorem recorded_read_of_failed {r : Recorder ρ} {n : Nat} {failure : IoFailure}
    (h : (Source.read r.source n).1 = .failed failure) :
    (r.read n).2.recorded = r.recorded := by
  unfold read
  split
  · rename_i data source hread
    rw [hread] at h
    cases h
  · rfl

theorem keeps_read {bytes : Bytes} {r : Recorder ρ} (h : Keeps bytes r)
    {n : Nat} (hn : 0 < n) :
    Keeps bytes (r.read n).2 := by
  rcases h with ⟨rest, rfl, hrest⟩
  have hsource : (r.read n).2.source = (Source.read r.source n).2 := by
    rw [source_read]
  cases hanswer : Source.read r.source n with
  | mk answer source =>
      rw [hanswer] at hsource
      cases answer with
      | bytes data =>
          rcases hrest.of_bytes hn hanswer with ⟨rest', rfl, _, hrest'⟩
          refine ⟨rest', ?_, ?_⟩
          · rw [recorded_read_of_bytes (congrArg Prod.fst hanswer),
              List.append_assoc]
          · rw [hsource]
            exact hrest'
      | failed failure =>
          have hinterrupted := hrest.interrupted_of_failed hn hanswer
          subst hinterrupted
          refine ⟨rest, ?_, ?_⟩
          · rw [recorded_read_of_failed (congrArg Prod.fst hanswer)]
          · rw [hsource]
            exact hrest.of_interrupted hn hanswer

theorem delivers_ofSource {r : ρ} {bytes : Bytes} (h : Delivers r bytes) :
    Delivers (ofSource r) bytes := by
  refine ⟨fun recorder rest => Delivers recorder.source rest, ?_, h⟩
  intro recorder rest n hrest hn
  have hanswer := hrest.answers hn
  rw [source_read] at hanswer
  refine AnswersFor.map ?_ ?_ hanswer
  · rfl
  · intro later hlater
    exact hlater

end Recorder

namespace Replay

/-- The relation of a replay to what it delivers: the rest of the recording, and
then what the live source delivers. -/
def Holds (r : Replay ρ) (bytes : Bytes) : Prop :=
  exists rest, bytes = r.recording.getD [] ++ rest ∧ Delivers r.live rest

variable {R : ρ -> Bytes -> Prop} {S : Replay ρ -> Bytes -> Prop}

theorem answersFor_readLive
    (hS : forall recording live rest, R live rest ->
      S ⟨recording, live⟩ (recording.getD [] ++ rest))
    {live : ρ} {rest : Bytes} {n : Nat}
    (h : AnswersFor R rest (Source.read live n)) :
    AnswersFor S rest (readLive live n) := by
  refine AnswersFor.map ?_ ?_ h
  · rfl
  · intro later hlater
    exact hS none _ later hlater

theorem answersFor_of_live
    (hS : forall recording live rest, R live rest ->
      S ⟨recording, live⟩ (recording.getD [] ++ rest))
    {r : Replay ρ} {rest : Bytes} {n : Nat} (hn : 0 < n) (hrest : R r.live rest)
    (hlive : AnswersFor R rest (Source.read r.live n)) :
    AnswersFor S (r.recording.getD [] ++ rest) (r.read n) := by
  unfold read
  split
  · rename_i hnone
    rw [hnone]
    exact answersFor_readLive hS hlive
  · rename_i hempty
    rw [hempty, if_neg (Nat.ne_of_gt hn)]
    exact answersFor_readLive hS hlive
  · rename_i recording hfilled hsome
    rw [hsome, Option.getD_some]
    refine ⟨recording.drop n ++ rest, ?_, ?_,
      hS (some (recording.drop n)) _ rest hrest⟩
    · rw [← List.append_assoc, List.take_append_drop]
    · intro hnothing
      rcases List.take_eq_nil_iff.mp hnothing with hzero | hnil
      · exact absurd hzero (Nat.ne_of_gt hn)
      · exact absurd hnil hfilled

theorem answersFor_read {r : Replay ρ} {bytes : Bytes} (h : Holds r bytes)
    {n : Nat} (hn : 0 < n) : AnswersFor Holds bytes (r.read n) := by
  rcases h with ⟨rest, rfl, hrest⟩
  exact answersFor_of_live (fun _ _ rest hlive => ⟨rest, rfl, hlive⟩) hn hrest
    (hrest.answers hn)

end Replay

/-- A replay delivers the whole byte string again, from its first byte. -/
theorem Recorder.delivers_replay {bytes : Bytes} {r : Recorder ρ}
    (h : r.Keeps bytes) :
    Delivers r.replay bytes :=
  ⟨Replay.Holds, fun _ _ _ hr hn => Replay.answersFor_read hr hn, h⟩

end TransportStream
